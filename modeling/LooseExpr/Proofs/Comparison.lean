import LooseExpr.Proofs.Decimal.Arithmetic
/-!
# Loose comparisons

A number and its text count as the same wherever values are coerced, and so wherever they are compared loosely; only a
strict comparison tells them apart (`Value.number_and_text_alike`).

The loose order tries truth values, then numbers, then texts, and which of these applies is asked of both operands.  Turned
round it is the reverse order all the same (`Value.looseOrder_swap`), and it has an answer for all values without a
handle (`Value.looseOrder_is_consistent`).
-/
namespace LooseExpr

/-! ## Numbers and their texts -/

namespace Decimal

theorem toNat_le_of_mem_toChars {d : Decimal} {c : Char} (h : c ∈ d.toChars) : c.toNat ≤ 57 := by
  have hdigit : ∀ c : Char, c.isDigit = true → c.toNat ≤ 57 := fun c hc => (Char.isDigit_iff_toNat.1 hc).2
  rw [toChars_eq] at h
  rcases List.mem_append.1 h with h | h
  · unfold Numeral.signChars at h
    split at h
    · rw [List.mem_singleton.1 h]
      decide
    · cases h
  rcases List.mem_append.1 h with h | h
  · exact hdigit c (isDigit_wholeChars d.isDigit_magnitudeChars _ c h)
  · have hfraction := isDigit_fractionChars d.isDigit_magnitudeChars d.scale
    generalize fractionChars d.magnitudeChars d.scale = fraction at h hfraction
    cases fraction with
    | nil => cases h
    | cons first fraction =>
      rcases List.mem_cons.1 h with rfl | h
      · decide
      · exact hdigit c (hfraction c h)

/-- A word with a letter in it is not the text of a number. -/
theorem not_eqIgnoringAsciiCase_toText (d : Decimal) (word : String) (letter : Char) (h : letter ∈ word.toList)
    (hletter : 57 < letter.toLower.toNat) : Text.eqIgnoringAsciiCase d.toText word = false := by
  refine Bool.eq_false_iff.2 fun heq => ?_
  have hchars : d.toText.toList.map Char.toLower = word.toList.map Char.toLower := eq_of_beq heq
  have hmem : letter.toLower ∈ d.toText.toList.map Char.toLower := hchars ▸ List.mem_map_of_mem h
  obtain ⟨c, hc, hlower⟩ := List.mem_map.1 hmem
  have hle : c.toNat ≤ 57 := toNat_le_of_mem_toChars (by rwa [toText, String.toList_ofList] at hc)
  have hsame : c.toLower = c := by
    unfold Char.toLower
    refine dif_neg fun hupper => ?_
    have hA : 65 ≤ c.toNat := hupper.1
    omega
  rw [← hlower, hsame] at hletter
  omega

/-- **The text of a number stands for the same truth value.** -/
theorem boolean?_toText {d : Decimal} (h : d.Normal) : Text.boolean? d.toText = some (!d.isZero) := by
  have htrue := d.not_eqIgnoringAsciiCase_toText "true" 't' (by decide) (by decide)
  have hyes := d.not_eqIgnoringAsciiCase_toText "yes" 'y' (by decide) (by decide)
  have hfalse := d.not_eqIgnoringAsciiCase_toText "false" 'f' (by decide) (by decide)
  have hno := d.not_eqIgnoringAsciiCase_toText "no" 'n' (by decide) (by decide)
  unfold Text.boolean?
  simp only [trim_toText, htrue, hyes, hfalse, hno, decimal?_toText h, Bool.or_self, Bool.false_eq_true, if_false,
    Option.map_some]

end Decimal

namespace Value

theorem toDecimal_toText {d : Decimal} (h : d.Normal) : (text d.toText).toDecimal = .ok d := by
  unfold toDecimal
  simp only [Decimal.decimal?_toText h]

theorem toBoolean_toText {d : Decimal} (h : d.Normal) : (text d.toText).toBoolean = .ok (!d.isZero) := by
  unfold toBoolean
  simp only [Decimal.boolean?_toText h]

/-- **A value passes for another one**: it is the same, or, unless that would be seen, the text of a number for the
number. -/
def PassesFor (seen : Bool) (w v : Value) : Prop :=
  w = v ∨ seen = false ∧ ∃ d : Decimal, d.Normal ∧ w = .text d.toText ∧ v = .number d

namespace PassesFor

variable {seen : Bool} {v w : Value}

theorem refl (seen : Bool) (v : Value) : PassesFor seen v v := .inl rfl

theorem eq_of_seen (h : PassesFor true w v) : w = v := h.resolve_right fun hloose => Bool.noConfusion hloose.1

theorem toText_eq (h : PassesFor seen w v) : w.toText = v.toText := by
  rcases h with rfl | ⟨-, d, -, rfl, rfl⟩ <;> rfl

theorem toDecimal_eq (h : PassesFor seen w v) : w.toDecimal = v.toDecimal := by
  rcases h with rfl | ⟨-, d, hd, rfl, rfl⟩
  · rfl
  · exact toDecimal_toText hd

theorem toBoolean_eq (h : PassesFor seen w v) : w.toBoolean = v.toBoolean := by
  rcases h with rfl | ⟨-, d, hd, rfl, rfl⟩
  · rfl
  · exact toBoolean_toText hd

theorem isComplex_eq (h : PassesFor seen w v) : w.isComplex = v.isComplex := by
  rcases h with rfl | ⟨-, d, -, rfl, rfl⟩ <;> rfl

theorem containsText_eq {v' w' : Value} {seen' : Bool} (h : PassesFor seen w v) (h' : PassesFor seen' w' v') :
    w.containsText w' = v.containsText v' := by
  unfold containsText
  rw [h.toText_eq, h'.toText_eq]

theorem decimal?_eq (h : PassesFor seen w v) : w.decimal? = v.decimal? := by
  rcases h with rfl | ⟨-, d, hd, rfl, rfl⟩
  · rfl
  · simp only [decimal?, Decimal.decimal?_toText hd]

theorem looseBool?_eq (h : PassesFor seen w v) : w.looseBool? = v.looseBool? := by
  rcases h with rfl | ⟨-, d, hd, rfl, rfl⟩
  · rfl
  · simp only [looseBool?, Decimal.boolean?_toText hd]

theorem boolOrder?_left (h : PassesFor seen w v) (other : Value) : w.boolOrder? other = v.boolOrder? other := by
  have hbool := h.looseBool?_eq
  rcases h with rfl | ⟨-, d, -, rfl, rfl⟩
  · rfl
  · cases other with
    | bool b => simp only [boolOrder?, hbool]
    | _ => rfl

theorem boolOrder?_right (h : PassesFor seen w v) (other : Value) : other.boolOrder? w = other.boolOrder? v := by
  have hbool := h.looseBool?_eq
  rcases h with rfl | ⟨-, d, -, rfl, rfl⟩
  · rfl
  · cases other with
    | bool b => simp only [boolOrder?, hbool]
    | _ => rfl

/-- The kind of a value is told only where another one has a handle. -/
theorem looseOrder_left (h : PassesFor seen w v) {other : Value} (hother : other.isComplex = false) :
    w.looseOrder other = v.looseOrder other := by
  have hbool := h.boolOrder?_left other
  have hnumber : w.numberOrder? other = v.numberOrder? other := by rw [numberOrder?, numberOrder?, h.decimal?_eq]
  have htext : w.textOrder other = v.textOrder other := by rw [textOrder, textOrder, h.toText_eq]
  rcases h with rfl | ⟨-, d, -, rfl, rfl⟩
  · rfl
  · unfold looseOrder
    rw [hother]
    simp only [hbool, hnumber, htext]
    rfl

theorem looseOrder_right (h : PassesFor seen w v) {other : Value} (hother : other.isComplex = false) :
    other.looseOrder w = other.looseOrder v := by
  have hbool := h.boolOrder?_right other
  have hnumber : other.numberOrder? w = other.numberOrder? v := by rw [numberOrder?, numberOrder?, h.decimal?_eq]
  have htext : other.textOrder w = other.textOrder v := by rw [textOrder, textOrder, h.toText_eq]
  rcases h with rfl | ⟨-, d, -, rfl, rfl⟩
  · rfl
  · unfold looseOrder
    rw [hother]
    simp only [hbool, hnumber, htext]
    cases other <;> rfl

theorem toInt_eq (h : PassesFor seen w v) : w.toInt = v.toInt := by
  unfold toInt
  rw [h.toDecimal_eq]

/-- A cast that converts takes both for the same. -/
theorem apply_eq (h : PassesFor seen w v) {target : CastTarget} (htarget : ∀ name, target ≠ .other name) :
    target.apply w = target.apply v := by
  cases target with
  | number => simp only [CastTarget.apply, h.toDecimal_eq]
  | string => simp only [CastTarget.apply, h.toText_eq]
  | boolean => simp only [CastTarget.apply, h.toBoolean_eq]
  | int => simp only [CastTarget.apply, h.toInt_eq]
  | other name => exact absurd rfl (htarget name)

theorem toOption_looseOrder_left (h : PassesFor seen w v) (other : Value) :
    (w.looseOrder other).toOption = (v.looseOrder other).toOption := by
  cases hother : other.isComplex with
  | false => rw [h.looseOrder_left hother]
  | true => simp [looseOrder, hother, Except.toOption]

theorem toOption_looseOrder_right (h : PassesFor seen w v) (other : Value) :
    (other.looseOrder w).toOption = (other.looseOrder v).toOption := by
  cases hother : other.isComplex with
  | false => rw [h.looseOrder_right hother]
  | true => simp [looseOrder, hother, Except.toOption]

end PassesFor

end Value

/-! ## Comparisons -/

theorem toOption_map {ε α β : Type} (x : Except ε α) (f : α → β) :
    (do return f (← x) : Except ε β).toOption = x.toOption.map f := by
  cases x <;> rfl

/-- What a comparison asks of the loose order of its operands; the others do not look at it. -/
def DecisionOp.ofOrder? : DecisionOp → Option (Ordering → Bool)
  | lt => some (· == .lt)
  | lte => some (· != .gt)
  | gt => some (· == .gt)
  | gte => some (· != .lt)
  | eq => some (· == .eq)
  | neq => some (· != .eq)
  | _ => none

theorem DecisionOp.decide_of_ofOrder? {op : DecisionOp} {answer : Ordering → Bool} (h : op.ofOrder? = some answer)
    (l r : Value) : op.decide l r = do return answer (← l.looseOrder r) := by
  cases op with
  | eeq | neeq | ct | nct => cases h
  | _ =>
    cases h
    rfl

/-- The comparison that is true of operands in this order, among less, equal and greater. -/
def DecisionOp.ofOrdering : Ordering → DecisionOp
  | .lt => lt
  | .eq => eq
  | .gt => gt

theorem DecisionOp.ofOrder?_ofOrdering (order : Ordering) : (ofOrdering order).ofOrder? = some (· == order) := by
  cases order <;> rfl

theorem Value.PassesFor.toOption_decide {seen : Bool} {w v : Value} (h : w.PassesFor seen v) {op : DecisionOp}
    (hop : op ≠ .eeq ∧ op ≠ .neeq) (other : Value) :
    (op.decide w other).toOption = (op.decide v other).toOption ∧
      (op.decide other w).toOption = (op.decide other v).toOption := by
  cases hask : op.ofOrder? with
  | some answer =>
    simp only [DecisionOp.decide_of_ofOrder? hask, toOption_map, h.toOption_looseOrder_left, h.toOption_looseOrder_right,
      and_self]
  | none =>
    have hleft : w.containsText other = v.containsText other := h.containsText_eq (.refl false other)
    have hright : other.containsText w = other.containsText v := PassesFor.containsText_eq (.refl false other) h
    cases op with
    | eeq => exact absurd rfl hop.1
    | neeq => exact absurd rfl hop.2
    | ct | nct => simp only [DecisionOp.decide, hleft, hright, and_self]
    | _ => cases hask

/-- **A number and its text are the same to all but the strict comparisons.**  Every coercion and every cast that converts
comes to the same for both, faults included, and they compare alike with every value, from either side: the same order,
or none for both. -/
theorem Value.number_and_text_alike {d : Decimal} (h : d.Normal) :
    ((number d).toDecimal = .ok d ∧ (text d.toText).toDecimal = .ok d) ∧
    ((number d).decimal? = some d ∧ (text d.toText).decimal? = some d) ∧
    ((number d).toBoolean = .ok (!d.isZero) ∧ (text d.toText).toBoolean = .ok (!d.isZero)) ∧
    ((number d).toText = .ok d.toText ∧ (text d.toText).toText = .ok d.toText) ∧
    ((number d).toKey = .ok ⟨d.toText⟩ ∧ (text d.toText).toKey = .ok ⟨d.toText⟩) ∧
    (text d.toText).toInt = (number d).toInt ∧
    (∀ target ∈ [CastTarget.number, .string, .boolean, .int], target.apply (text d.toText) = target.apply (number d)) ∧
    (∀ v, ((text d.toText).looseOrder v).toOption = ((number d).looseOrder v).toOption ∧
      (v.looseOrder (text d.toText)).toOption = (v.looseOrder (number d)).toOption) ∧
    ∀ op : DecisionOp, op ≠ .eeq ∧ op ≠ .neeq ↔
      ∀ v, (op.decide (text d.toText) v).toOption = (op.decide (number d) v).toOption ∧
        (op.decide v (text d.toText)).toOption = (op.decide v (number d)).toOption := by
  have hpass : (text d.toText).PassesFor false (number d) := .inr ⟨rfl, d, h, rfl, rfl⟩
  refine ⟨⟨rfl, toDecimal_toText h⟩, ⟨rfl, hpass.decimal?_eq⟩, ⟨rfl, toBoolean_toText h⟩, ⟨rfl, rfl⟩, ⟨rfl, rfl⟩,
    hpass.toInt_eq, fun target htarget => hpass.apply_eq ?_,
    fun v => ⟨hpass.toOption_looseOrder_left v, hpass.toOption_looseOrder_right v⟩,
    fun op => ⟨fun hop v => hpass.toOption_decide hop v, fun halike => ?_⟩⟩
  · rintro name rfl
    simp at htarget
  · -- the number is strictly equal to itself, and its text is not
    obtain ⟨hself, -⟩ := halike (number d)
    constructor <;> rintro rfl <;> simp [DecisionOp.decide, Except.toOption] at hself

/-- A tenth below zero, as a number and as a text, against a truth value, a struct and itself. -/
theorem Value.minusTenth_and_text_alike :
    Decimal.Normal ⟨-1, 1⟩ ∧ (text "-0.1").toDecimal = .ok ⟨-1, 1⟩ ∧
      ((text "-0.1").looseOrder (bool false)).toOption = some .gt ∧
      ((text "-0.1").looseOrder (struct ⟨0⟩)).toOption = ((number ⟨-1, 1⟩).looseOrder (struct ⟨0⟩)).toOption ∧
      ¬ ∀ v, (DecisionOp.eeq.decide (text "-0.1") v).toOption = (DecisionOp.eeq.decide (number ⟨-1, 1⟩) v).toOption ∧
        (DecisionOp.eeq.decide v (text "-0.1")).toOption = (DecisionOp.eeq.decide v (number ⟨-1, 1⟩)).toOption := by
  have hnormal : Decimal.Normal ⟨-1, 1⟩ := ⟨by decide, by decide⟩
  obtain ⟨⟨-, hdecimal⟩, -, -, -, -, -, -, horder, hops⟩ := number_and_text_alike hnormal
  refine ⟨hnormal, hdecimal, (horder (bool false)).1, (horder (struct ⟨0⟩)).1, fun hstrict => ?_⟩
  exact ((hops .eeq).2 hstrict).1 rfl

/-! ## The loose order -/

namespace Value

/-- The order of two instants. -/
def instantOrder? (l r : Value) : Option Ordering :=
  match l, r with
  | instant a, instant b => some (compare a b)
  | _, _ => none

/-- The order of two values, if it is not that of their texts. -/
def firstOrder? (l r : Value) : Option Ordering := (instantOrder? l r).or ((boolOrder? l r).or (numberOrder? l r))

variable {l r : Value}

theorem instantOrder?_swap (l r : Value) : r.instantOrder? l = (l.instantOrder? r).map Ordering.swap := by
  cases l with
  | instant a =>
    cases r with
    | instant b => exact congrArg some Std.OrientedCmp.eq_swap
    | _ => rfl
  | _ => cases r <;> rfl

theorem boolOrder?_swap (l r : Value) : r.boolOrder? l = (l.boolOrder? r).map Ordering.swap := by
  have hswap : ∀ a b : Bool, compare b a = (compare a b).swap := fun a b => Std.OrientedCmp.eq_swap
  cases l with
  | bool a =>
    cases r with
    | bool b => exact congrArg some (hswap a b)
    | _ => simp [boolOrder?, Function.comp_def, hswap a]
  | _ =>
    cases r with
    | bool b => simp [boolOrder?, Function.comp_def, hswap _ b]
    | _ => rfl

theorem numberOrder?_swap (l r : Value) : r.numberOrder? l = (l.numberOrder? r).map Ordering.swap := by
  unfold numberOrder?
  cases l.decimal? with
  | none => cases r.decimal? <;> rfl
  | some a =>
    cases r.decimal? with
    | none => rfl
    | some b => exact congrArg some Std.OrientedCmp.eq_swap

theorem firstOrder?_swap (l r : Value) : r.firstOrder? l = (l.firstOrder? r).map Ordering.swap := by
  unfold firstOrder?
  rw [instantOrder?_swap l r, boolOrder?_swap l r, numberOrder?_swap l r, Option.map_or, Option.map_or]

/-- The first of the three orders that applies decides, else the texts. -/
theorem looseOrder_eq (hl : l.isComplex = false) (hr : r.isComplex = false) :
    l.looseOrder r = (l.firstOrder? r).elim (l.textOrder r) .ok := by
  unfold looseOrder firstOrder?
  simp only [hl, hr, Bool.or_self, Bool.false_eq_true, if_false]
  split
  next a b => rfl
  next _ _ hinstants =>
    have hnone : l.instantOrder? r = none := by
      unfold instantOrder?
      split
      next a b => exact (hinstants a b rfl rfl).elim
      next => rfl
    rw [hnone, Option.none_or]
    cases l.boolOrder? r with
    | some order => rfl
    | none => cases l.numberOrder? r <;> rfl

theorem exists_toText {v : Value} (h : v.isComplex = false) : ∃ text, v.toText = .ok text := by
  cases v with
  | struct id => cases h
  | array id => cases h
  | _ => exact ⟨_, rfl⟩

/-- **Values without a handle have a loose order**, and turned round they have the reverse one. -/
theorem looseOrder_swap (hl : l.isComplex = false) (hr : r.isComplex = false) :
    ∃ order, l.looseOrder r = .ok order ∧ r.looseOrder l = .ok order.swap := by
  rw [looseOrder_eq hl hr, looseOrder_eq hr hl, firstOrder?_swap l r]
  cases l.firstOrder? r with
  | some order => exact ⟨order, rfl, rfl⟩
  | none =>
    obtain ⟨a, ha⟩ := exists_toText hl
    obtain ⟨b, hb⟩ := exists_toText hr
    refine ⟨compare (Text.lower a) (Text.lower b), ?_, ?_⟩
    · simp only [Option.elim_none, textOrder, ha, hb]
      rfl
    · simp only [Option.map_none, Option.elim_none, textOrder, ha, hb]
      exact congrArg Except.ok Std.OrientedCmp.eq_swap

theorem not_isComplex_of_looseOrder {order : Ordering} (h : l.looseOrder r = .ok order) :
    l.isComplex = false ∧ r.isComplex = false := by
  unfold looseOrder at h
  split at h
  · cases h
  · rename_i hsimple
    simpa using hsimple

theorem looseOrder_eq_ok_iff {order : Ordering} : l.looseOrder r = .ok order ↔ r.looseOrder l = .ok order.swap := by
  have hforth : ∀ {l r : Value} {order : Ordering}, l.looseOrder r = .ok order → r.looseOrder l = .ok order.swap := by
    intro l r order h
    obtain ⟨hl, hr⟩ := not_isComplex_of_looseOrder h
    obtain ⟨order', h', hswap⟩ := looseOrder_swap hl hr
    cases h.symm.trans h'
    exact hswap
  refine ⟨hforth, fun h => ?_⟩
  rw [← order.swap_swap]
  exact hforth h

/-- What is its own reverse is level. -/
theorem looseOrder_self (hl : l.isComplex = false) : l.looseOrder l = .ok .eq := by
  obtain ⟨order, h, hswap⟩ := looseOrder_swap hl hl
  have hself : order = order.swap := Except.ok.inj (h.symm.trans hswap)
  cases order with
  | eq => exact h
  | lt | gt => cases hself

theorem decide_of_looseOrder {op : DecisionOp} {answer : Ordering → Bool} (hask : op.ofOrder? = some answer)
    {order : Ordering} (h : l.looseOrder r = .ok order) : op.decide l r = .ok (answer order) := by
  rw [DecisionOp.decide_of_ofOrder? hask, h]
  rfl

theorem exists_containsText (hl : l.isComplex = false) (hr : r.isComplex = false) :
    ∃ answer, l.containsText r = .ok answer := by
  obtain ⟨a, ha⟩ := exists_toText hl
  obtain ⟨b, hb⟩ := exists_toText hr
  unfold containsText
  rw [ha, hb]
  exact ⟨_, rfl⟩

theorem decide_ofOrdering {order : Ordering} (h : l.looseOrder r = .ok order) (asked : Ordering) :
    (DecisionOp.ofOrdering asked).decide l r = .ok (order == asked) :=
  decide_of_looseOrder (DecisionOp.ofOrder?_ofOrdering asked) h

theorem exists_decide (hl : l.isComplex = false) (hr : r.isComplex = false) (op : DecisionOp) :
    ∃ answer, op.decide l r = .ok answer := by
  cases hask : op.ofOrder? with
  | some answer =>
    obtain ⟨order, h, -⟩ := looseOrder_swap hl hr
    exact ⟨answer order, decide_of_looseOrder hask h⟩
  | none =>
    obtain ⟨answer, h⟩ := exists_containsText hl hr
    cases op with
    | eeq | neeq => exact ⟨_, rfl⟩
    | ct | nct =>
      simp only [DecisionOp.decide, h]
      exact ⟨_, rfl⟩
    | _ => cases hask

/-- **The loose order is consistent.**  Values have one exactly if neither has a handle; turned round it is the reverse, and
every value is level with itself.  So the comparisons of values without a handle all have an answer, they can be turned
round, and exactly one of less, equal and greater is true. -/
theorem looseOrder_is_consistent (l r : Value) :
    ((∃ order, l.looseOrder r = .ok order) ↔ l.isComplex = false ∧ r.isComplex = false) ∧
    (∀ order : Ordering, l.looseOrder r = .ok order ↔ r.looseOrder l = .ok order.swap) ∧
    (l.isComplex = false → l.looseOrder l = .ok .eq) ∧
    (l.isComplex = false → r.isComplex = false →
      DecisionOp.lt.decide l r = DecisionOp.gt.decide r l ∧ DecisionOp.lte.decide l r = DecisionOp.gte.decide r l ∧
      DecisionOp.eq.decide l r = DecisionOp.eq.decide r l ∧ DecisionOp.neq.decide l r = DecisionOp.neq.decide r l ∧
      (∃! op, op ∈ [DecisionOp.lt, .eq, .gt] ∧ op.decide l r = .ok true) ∧
      ∀ op : DecisionOp, ∃ answer, op.decide l r = .ok answer) := by
  refine ⟨⟨fun ⟨order, h⟩ => not_isComplex_of_looseOrder h, fun ⟨hl, hr⟩ => ?_⟩, fun order => looseOrder_eq_ok_iff,
    looseOrder_self, fun hl hr => ?_⟩
  · obtain ⟨order, h, -⟩ := looseOrder_swap hl hr
    exact ⟨order, h⟩
  · obtain ⟨order, h, hswap⟩ := looseOrder_swap hl hr
    have hturned : ∀ (op op' : DecisionOp) {answer answer' : Ordering → Bool}, op.ofOrder? = some answer →
        op'.ofOrder? = some answer' → (∀ order, answer order = answer' order.swap) → op.decide l r = op'.decide r l := by
      intro op op' answer answer' hask hask' hturn
      rw [decide_of_looseOrder hask h, decide_of_looseOrder hask' hswap, hturn]
    refine ⟨hturned .lt .gt rfl rfl ?_, hturned .lte .gte rfl rfl ?_, hturned .eq .eq rfl rfl ?_,
      hturned .neq .neq rfl rfl ?_, ⟨.ofOrdering order, ⟨?_, ?_⟩, ?_⟩, exists_decide hl hr⟩
    · decide
    · decide
    · decide
    · decide
    · cases order <;> simp [DecisionOp.ofOrdering]
    · rw [decide_ofOrdering h, beq_self_eq_true]
    · rintro op ⟨hop, htrue⟩
      obtain ⟨asked, rfl⟩ : ∃ asked, op = .ofOrdering asked := by
        simp only [List.mem_cons, List.not_mem_nil, or_false] at hop
        rcases hop with rfl | rfl | rfl
        · exact ⟨.lt, rfl⟩
        · exact ⟨.eq, rfl⟩
        · exact ⟨.gt, rfl⟩
      rw [decide_ofOrdering h] at htrue
      rw [eq_of_beq (Except.ok.inj htrue)]

/-- A word for false is less than true, from both sides, and not equal to it. -/
theorem no_less_than_true :
    (text " No ").looseOrder (bool true) = .ok .lt ∧ (bool true).looseOrder (text " No ") = .ok .gt ∧
      DecisionOp.gt.decide (bool true) (text " No ") = .ok true ∧
      ∃! op, op ∈ [DecisionOp.lt, .eq, .gt] ∧ op.decide (text " No ") (bool true) = .ok true := by
  have hless : (text " No ").looseOrder (bool true) = .ok .lt := by decide +kernel
  obtain ⟨-, hswap, -, hdecide⟩ := looseOrder_is_consistent (text " No ") (bool true)
  obtain ⟨hlt, -, -, -, hone, -⟩ := hdecide rfl rfl
  exact ⟨hless, (hswap .lt).1 hless, hlt.symm.trans (decide_ofOrdering hless .lt), hone⟩

end Value

end LooseExpr
