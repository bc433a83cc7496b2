import LooseExpr.Expr.Build
import LooseExpr.Proofs.Decimal.Reading
import LooseExpr.Proofs.StaticType
/-!
# Casts and operators done at once

Building a tree leaves out the casts that the static type makes needless, and converts literals, joins their texts and
negates them at once.  Evaluation knows nothing of this: it casts values by rules of its own.  Here the two are compared
on every tree and in every session (`Expr.folding_agrees_with_evaluation`).

A cast that is left out does nothing because the value fits the static type; a literal that converts has the value that
evaluation would have come to (`Constant.decimal?_lower` and its companions).
-/
namespace LooseExpr

/-! ## Casts of values -/

namespace Value

variable {settings : Settings} {v : Value}

theorem apply_number_of_toDecimal {d : Decimal} (h : v.toDecimal = .ok d) :
    CastTarget.number.apply v = .ok (.number d) := by
  unfold CastTarget.apply
  rw [h]
  rfl

theorem apply_boolean_of_toBoolean {b : Bool} (h : v.toBoolean = .ok b) :
    CastTarget.boolean.apply v = .ok (.bool b) := by
  unfold CastTarget.apply
  rw [h]
  rfl

theorem apply_int_of_toDecimal {d : Decimal} {n : Int32} (h : v.toDecimal = .ok d) (hn : d.truncInt32? = some n) :
    CastTarget.int.apply v = .ok (.ofInt n.toInt) := by
  have hint : v.toInt = .ok n := by
    unfold toInt
    rw [h]
    simp only [bind, Except.bind, hn]
  unfold CastTarget.apply
  rw [hint]
  rfl

theorem apply_string_of_fits (h : v.Fits settings .string) : CastTarget.string.apply v = .ok v := by
  obtain ⟨s, rfl⟩ := h
  rfl

theorem apply_boolean_of_fits (h : v.Fits settings .boolean) : CastTarget.boolean.apply v = .ok v := by
  obtain ⟨b, rfl⟩ := h
  rfl

theorem truncInt32?_ofInt (n : Int32) : (Decimal.ofInt n.toInt).truncInt32? = some n := by
  have htrunc : (Decimal.ofInt n.toInt).trunc = n.toInt := Int.tdiv_one n.toInt
  have hlow := n.le_toInt
  have hhigh := n.toInt_lt
  unfold Decimal.truncInt32? Decimal.int32?
  rw [htrunc, if_pos ⟨hlow, hhigh⟩, Int32.ofInt_toInt]

theorem apply_int_of_fits (h : v.Fits settings .int) : CastTarget.int.apply v = .ok v := by
  obtain ⟨n, rfl⟩ := h
  exact apply_int_of_toDecimal rfl (truncInt32?_ofInt n)

/-- **A value of the static type of numbers is a number**, also where it comes as text. -/
theorem toDecimal_of_fits (h : v.Fits settings .number) : ∃ d, v.toDecimal = .ok d := by
  rcases h with ⟨d, rfl⟩ | ⟨d, hd, rfl⟩
  · exact ⟨d, rfl⟩
  · refine ⟨d, ?_⟩
    unfold toDecimal
    simp only [Decimal.decimal?_toText hd]

end Value

/-! ## Literals that convert -/

namespace Constant

/-- **The number of a constant is the number of its value.** -/
theorem decimal?_lower {c : Constant} {d : Decimal} (h : c.decimal? = some d) (settings : Settings) :
    ∃ v, c.lower settings = .literal v ∧ v.toDecimal = .ok d := by
  cases c with
  | boolean b =>
    cases h
    exact ⟨.bool b, rfl, rfl⟩
  | string s =>
    refine ⟨.text s, rfl, ?_⟩
    have hs : Text.decimal? s = some d := h
    unfold Value.toDecimal
    simp only [hs]
  | number d' =>
    cases h
    exact ⟨.number d, rfl, rfl⟩
  | integer n =>
    cases h
    exact ⟨.ofInt n.toInt, rfl, rfl⟩
  | long n =>
    cases h
    exact ⟨.ofInt n.toInt, rfl, rfl⟩
  | null => cases h
  | nullWord => cases h
  | empty => cases h

/-- **The truth value of a constant is the truth value of its value.** -/
theorem boolean?_lower {c : Constant} {b : Bool} (h : c.boolean? = some b) (settings : Settings) :
    ∃ v, c.lower settings = .literal v ∧ v.toBoolean = .ok b := by
  cases c with
  | boolean b' =>
    cases h
    exact ⟨.bool b, rfl, rfl⟩
  | string s =>
    refine ⟨.text s, rfl, ?_⟩
    have hs : Text.boolean? s = some b := h
    unfold Value.toBoolean
    simp only [hs]
  | number d =>
    cases h
    exact ⟨.number d, rfl, rfl⟩
  | integer n =>
    cases h
    exact ⟨.ofInt n.toInt, rfl, rfl⟩
  | long n =>
    cases h
    exact ⟨.ofInt n.toInt, rfl, rfl⟩
  | null => cases h
  | nullWord => cases h
  | empty => cases h

/-- **The text of a constant is the text of its value.** -/
theorem text?_lower {c : Constant} {t : String} (h : c.text? = some t) (settings : Settings) :
    ∃ v, c.lower settings = .literal v ∧ v.toText = .ok t := by
  cases c with
  | boolean b =>
    cases h
    exact ⟨.bool b, rfl, rfl⟩
  | string s =>
    cases h
    exact ⟨.text t, rfl, rfl⟩
  | number d =>
    cases h
    exact ⟨.number d, rfl, rfl⟩
  | integer n =>
    cases h
    exact ⟨.ofInt n.toInt, rfl, congrArg Except.ok (Decimal.toText_ofInt n.toInt)⟩
  | long n =>
    cases h
    exact ⟨.ofInt n.toInt, rfl, congrArg Except.ok (Decimal.toText_ofInt n.toInt)⟩
  | null => cases h
  | nullWord => cases h
  | empty =>
    cases h
    exact ⟨.text "", rfl, rfl⟩

end Constant

/-! ## Outcomes -/

namespace Outcome

/-- The outcomes agree, except that a value may stand for its number in another form. -/
def SameNumber (a b : Outcome) : Prop :=
  a.2 = b.2 ∧ match a.1, b.1 with
    | .ok v, .ok w => v.toDecimal = w.toDecimal
    | .error f, .error g => f = g
    | _, _ => False

theorem andThen_ok (o : Outcome) : o.andThen .ok = o := by
  rcases o with ⟨result, s⟩
  cases result <;> rfl

theorem andThen_of_ok {f : Value → Except Fault Value} {v w : Value} (h : f v = .ok w) (s : Session) :
    andThen (.ok v, s) f = (.ok w, s) := by
  unfold andThen
  simp only [h]
  rfl

theorem andThen_andThen (o : Outcome) (f g : Value → Except Fault Value) :
    (o.andThen f).andThen g = o.andThen fun v => f v >>= g := by
  rcases o with ⟨result, s⟩
  cases result with
  | ok v =>
    cases hf : f v with
    | ok w =>
      rw [andThen_of_ok hf]
      unfold andThen
      simp only [hf]
      rfl
    | error fault =>
      unfold andThen
      simp only [hf]
      rfl
  | error failure => rfl

theorem SameNumber.refl (o : Outcome) : o.SameNumber o := by
  rcases o with ⟨result, s⟩
  cases result with
  | ok v => exact ⟨rfl, rfl⟩
  | error failure => exact ⟨rfl, rfl⟩

/-- What looks at the number of a value only cannot tell the outcomes apart. -/
theorem SameNumber.andThen_eq {a b : Outcome} (h : a.SameNumber b) (f : Decimal → Except Fault Value) :
    a.andThen (fun v => v.toDecimal >>= f) = b.andThen (fun v => v.toDecimal >>= f) := by
  rcases a with ⟨result, s⟩
  rcases b with ⟨result', s'⟩
  obtain ⟨hs, hr⟩ := h
  simp only at hs hr
  subst hs
  cases result with
  | ok v =>
    cases result' with
    | ok w =>
      have hvw : v.toDecimal = w.toDecimal := hr
      unfold andThen
      simp only [hvw]
    | error g => cases hr
  | error f =>
    cases result' with
    | ok w => cases hr
    | error g =>
      have hfg : f = g := hr
      rw [hfg]

end Outcome

namespace Expr

theorem evaluate_literal {lit : Literal} {s : Session} {v : Value} (h : lit.value.lower s.settings = .literal v) :
    (literal lit).evaluate s = (.ok v, s) := by
  have hlower : (literal lit).lower s.settings = .ok (.literal v) := by
    rw [lower, h]
    rfl
  rw [evaluate_of_lower_ok hlower, Ref.resolve]
  rfl

/-- **A step that does nothing to values of the static type can be left out.** -/
theorem andThen_evaluate_eq_self {e : Expr} {s : Session} {f : Value → Except Fault Value}
    (h : ∀ v, v.Fits s.settings e.staticType → f v = .ok v) : Outcome.andThen (e.evaluate s) f = e.evaluate s := by
  rcases he : e.evaluate s with ⟨result, t⟩
  cases result with
  | ok v =>
    obtain ⟨r, hlower, hrun⟩ := ok_of_evaluate he
    exact Outcome.andThen_of_ok (h v (resolve_fits s.settings e hlower hrun)) t
  | error failure => rfl

theorem fold?_eq_some {e e' : Expr} {convert : Constant → Option Constant} (h : e.fold? convert = some e') :
    ∃ lit value, e = literal lit ∧ convert lit.value = some value ∧ e' = literal ⟨value, lit.span⟩ := by
  unfold fold? at h
  split at h
  · rename_i lit
    obtain ⟨value, hvalue, rfl⟩ := Option.map_eq_some_iff.1 h
    exact ⟨lit, value, rfl, hvalue, rfl⟩
  · cases h

/-! ## Casts -/

theorem evaluate_asText (e : Expr) (span : Option Span) (s : Session) :
    e.asText.evaluate s = (cast e .string span).evaluate s := by
  unfold asText
  split
  · rename_i htype
    rw [evaluate_cast, andThen_evaluate_eq_self]
    intro v hv
    rw [htype] at hv
    exact Value.apply_string_of_fits hv
  · rw [wrap, evaluate_cast, evaluate_cast]

theorem evaluate_asBoolean (e : Expr) (span : Option Span) (s : Session) :
    e.asBoolean.evaluate s = (cast e .boolean span).evaluate s := by
  unfold asBoolean
  split
  · rename_i htype
    rw [evaluate_cast, andThen_evaluate_eq_self]
    intro v hv
    rw [htype] at hv
    exact Value.apply_boolean_of_fits hv
  · cases hfold : e.fold? fun c => c.boolean?.map .boolean with
    | none => rw [Option.getD_none, wrap, evaluate_cast, evaluate_cast]
    | some e' =>
      obtain ⟨lit, value, rfl, hvalue, rfl⟩ := fold?_eq_some hfold
      obtain ⟨b, hb, rfl⟩ := Option.map_eq_some_iff.1 hvalue
      obtain ⟨v, hlower, hv⟩ := Constant.boolean?_lower hb s.settings
      rw [Option.getD_some, evaluate_cast, evaluate_literal hlower, evaluate_literal (v := .bool b) rfl,
        Outcome.andThen_of_ok (Value.apply_boolean_of_toBoolean hv)]

theorem evaluate_asInt (e : Expr) (span : Option Span) (s : Session) :
    e.asInt.evaluate s = (cast e .int span).evaluate s := by
  unfold asInt
  split
  · rename_i htype
    rw [evaluate_cast, andThen_evaluate_eq_self]
    intro v hv
    rw [htype] at hv
    exact Value.apply_int_of_fits hv
  · cases hfold : e.fold? fun c => (c.decimal?.bind Decimal.truncInt32?).map .integer with
    | none => rw [Option.getD_none, wrap, evaluate_cast, evaluate_cast]
    | some e' =>
      obtain ⟨lit, value, rfl, hvalue, rfl⟩ := fold?_eq_some hfold
      obtain ⟨n, hn, rfl⟩ := Option.map_eq_some_iff.1 hvalue
      obtain ⟨d, hd, hn⟩ := Option.bind_eq_some_iff.1 hn
      obtain ⟨v, hlower, hv⟩ := Constant.decimal?_lower hd s.settings
      rw [Option.getD_some, evaluate_cast, evaluate_literal hlower, evaluate_literal (v := .ofInt n.toInt) rfl,
        Outcome.andThen_of_ok (Value.apply_int_of_toDecimal hv hn)]

/-- **A cast to a number that is left out or done at once**: the value may be the text of the number. -/
theorem evaluate_asNumber (e : Expr) (span : Option Span) (s : Session) :
    Outcome.SameNumber (e.asNumber.evaluate s) ((cast e .number span).evaluate s) := by
  rw [evaluate_cast]
  unfold asNumber
  split
  · rename_i htype
    rcases he : e.evaluate s with ⟨result, t⟩
    cases result with
    | ok v =>
      obtain ⟨r, hlower, hrun⟩ := ok_of_evaluate he
      have hfit := resolve_fits s.settings e hlower hrun
      rw [htype] at hfit
      obtain ⟨d, hd⟩ := Value.toDecimal_of_fits hfit
      rw [Outcome.andThen_of_ok (Value.apply_number_of_toDecimal hd)]
      exact ⟨rfl, hd⟩
    | error failure => exact Outcome.SameNumber.refl _
  · cases hfold : e.fold? fun c => c.decimal?.map .number with
    | none =>
      rw [Option.getD_none, wrap, evaluate_cast]
      exact Outcome.SameNumber.refl _
    | some e' =>
      obtain ⟨lit, value, rfl, hvalue, rfl⟩ := fold?_eq_some hfold
      obtain ⟨d, hd, rfl⟩ := Option.map_eq_some_iff.1 hvalue
      obtain ⟨v, hlower, hv⟩ := Constant.decimal?_lower hd s.settings
      rw [Option.getD_some, evaluate_literal hlower, evaluate_literal (v := .number d) rfl,
        Outcome.andThen_of_ok (Value.apply_number_of_toDecimal hv)]
      exact Outcome.SameNumber.refl _

theorem apply_other {name : String} (target : CastTarget) (h : (NamedType.ofName name).target? = some target)
    (v : Value) : (CastTarget.other name).apply v = target.apply v := by
  unfold CastTarget.apply
  cases hname : NamedType.ofName name <;> rw [hname] at h <;> cases h <;> simp only [Value.toNamed_eq, hname]

theorem apply_other_any {name : String} (hname : NamedType.ofName name = .any) (v : Value) :
    (CastTarget.other name).apply v = .ok v := by
  unfold CastTarget.apply
  simp only [Value.toNamed_eq, hname]

theorem evaluate_cast_congr {target target' : CastTarget} (h : ∀ v, target.apply v = target'.apply v) (e : Expr)
    (span : Option Span) (s : Session) : (cast e target span).evaluate s = (cast e target' span).evaluate s := by
  rw [evaluate_cast, evaluate_cast, funext h]

/-- **Casts to a type given by name**: what they become by the name is what the cast by the name does. -/
theorem evaluate_asNamed (e : Expr) (name : String) (span : Option Span) (s : Session) :
    if NamedType.ofName name = .number then
      Outcome.SameNumber ((e.asNamed name).evaluate s) ((cast e (.other name) span).evaluate s)
    else (e.asNamed name).evaluate s = (cast e (.other name) span).evaluate s := by
  rw [asNamed_eq]
  cases hname : NamedType.ofName name with
  | number =>
    rw [if_pos rfl, evaluate_cast_congr (apply_other .number (by rw [hname]; rfl))]
    exact evaluate_asNumber e span s
  | string =>
    rw [if_neg (by decide), evaluate_cast_congr (apply_other .string (by rw [hname]; rfl))]
    exact evaluate_asText e span s
  | boolean =>
    rw [if_neg (by decide), evaluate_cast_congr (apply_other .boolean (by rw [hname]; rfl))]
    exact evaluate_asBoolean e span s
  | int =>
    rw [if_neg (by decide), evaluate_cast_congr (apply_other .int (by rw [hname]; rfl))]
    exact evaluate_asInt e span s
  | any =>
    rw [if_neg (by decide), evaluate_cast, funext (apply_other_any hname)]
    exact (Outcome.andThen_ok _).symm
  | struct =>
    rw [if_neg (by decide)]
    simp only [wrap]
    rw [evaluate_cast, evaluate_cast]
  | array =>
    rw [if_neg (by decide)]
    simp only [wrap]
    rw [evaluate_cast, evaluate_cast]
  | unknown =>
    rw [if_neg (by decide)]
    simp only [wrap]
    rw [evaluate_cast, evaluate_cast]

/-! ## Operators -/

/-- The literal that an operator is done on at once. -/
theorem bind_literal?_eq_some {α : Type} {e : Expr} {f : Literal → Option α} {a : α}
    (h : e.literal?.bind f = some a) : ∃ lit, e = literal lit ∧ f lit = some a := by
  obtain ⟨lit, hlit, ha⟩ := Option.bind_eq_some_iff.1 h
  unfold literal? at hlit
  split at hlit
  · cases hlit
    exact ⟨lit, rfl, ha⟩
  · cases hlit

/-- **A literal put under a cast to text resolves to its text.** -/
theorem lower_asText_literal {lit : Literal} {t : String} (h : lit.value.text? = some t) (settings : Settings) :
    ∃ r, (literal lit).asText.lower settings = .ok r ∧ ∀ s, (r.resolve false).run s = (.ok (.text t), s) := by
  obtain ⟨v, hlower, hv⟩ := Constant.text?_lower h settings
  have hlit : (literal lit).lower settings = .ok (.literal v) := by
    rw [lower, hlower]
    rfl
  unfold asText
  split
  · rename_i htype
    refine ⟨.literal v, hlit, fun s => ?_⟩
    have hfit : v.Fits settings .string := by
      rw [← htype]
      exact resolve_fits settings (literal lit) hlit (s := s) (by rw [Ref.resolve, Eval.run_pure])
    obtain ⟨t', rfl⟩ := hfit
    cases hv
    rw [Ref.resolve, Eval.run_pure]
  · refine ⟨.cast (.literal v) .string, ?_, fun s => ?_⟩
    · rw [wrap, lower, hlit]
      rfl
    · rw [Ref.resolve, Ref.resolve]
      unfold CastTarget.apply
      rw [Eval.run_bind_of_ok (Eval.run_pure v s), Eval.run_lift, hv]
      rfl

theorem evaluate_concat_literals {l r : Literal} {a b : String} (hl : l.value.text? = some a)
    (hr : r.value.text? = some b) (span : Option Span) (s : Session) :
    (concat (literal l).asText (literal r).asText span).evaluate s = (.ok (.text (a ++ b)), s) := by
  obtain ⟨l', hl', hrunl⟩ := lower_asText_literal hl s.settings
  obtain ⟨r', hr', hrunr⟩ := lower_asText_literal hr s.settings
  have hlower : (concat (literal l).asText (literal r).asText span).lower s.settings = .ok (.concat l' r') := by
    rw [lower, hl', hr']
    rfl
  have hrun : ((Ref.concat l' r').resolve false).run s = (.ok (.text (a ++ b)), s) := by
    rw [Ref.resolve, Eval.run_bind_of_ok (hrunl s)]
    rw [show (Value.text a).toText = .ok a from rfl, Eval.run_lift_ok_bind, Eval.run_bind_of_ok (hrunr s)]
    rw [show (Value.text b).toText = .ok b from rfl, Eval.run_lift_ok_bind, Eval.run_pure]
  rw [evaluate_of_lower_ok hlower, hrun]
  rfl

/-- **Joining literals at once changes nothing.** -/
theorem evaluate_mkConcat (l r : Expr) (s : Session) :
    (mkConcat l r true).evaluate s = (mkConcat l r false).evaluate s := by
  cases hl : l.literalText? with
  | none =>
    unfold mkConcat
    simp only [hl]
  | some a =>
    cases hr : r.literalText? with
    | none =>
      unfold mkConcat
      simp only [hl, hr]
    | some b =>
      obtain ⟨l, rfl, ha⟩ := bind_literal?_eq_some hl
      obtain ⟨r, rfl, hb⟩ := bind_literal?_eq_some hr
      unfold mkConcat
      simp only [hl, hr]
      rw [evaluate_concat_literals ha hb, evaluate_literal (v := .text (a ++ b)) rfl]

theorem evaluate_mkNot (e : Expr) (span span' : Option Span) (s : Session) :
    (mkNot e span).evaluate s = (not e span').evaluate s := by
  rw [evaluate_not]
  unfold mkNot
  simp only
  split
  · rename_i b hb
    obtain ⟨lit, rfl, hb⟩ := bind_literal?_eq_some hb
    obtain ⟨v, hlower, hv⟩ := Constant.boolean?_lower hb s.settings
    rw [evaluate_literal hlower, evaluate_literal (v := .bool !b) rfl, Outcome.andThen_of_ok]
    rw [hv]
    rfl
  · rw [evaluate_not, evaluate_asBoolean e none, evaluate_cast, Outcome.andThen_andThen]
    congr 1
    funext v
    unfold CastTarget.apply
    cases v.toBoolean <;> rfl

theorem evaluate_mkSigned (op : SignOp) (e : Expr) (span span' : Option Span) (s : Session) :
    (mkSigned op e span).evaluate s = (signed op e span').evaluate s := by
  rw [evaluate_signed]
  unfold mkSigned
  simp only
  split
  · rename_i d hd
    obtain ⟨lit, rfl, hd⟩ := bind_literal?_eq_some hd
    obtain ⟨v, hlower, hv⟩ := Constant.decimal?_lower hd s.settings
    rw [evaluate_literal hlower, evaluate_literal (v := .number (op.apply d)) rfl, Outcome.andThen_of_ok]
    rw [hv]
    rfl
  · rw [evaluate_signed, (evaluate_asNumber e none s).andThen_eq, evaluate_cast, Outcome.andThen_andThen]
    congr 1
    funext v
    unfold CastTarget.apply
    cases v.toDecimal <;> rfl

/-- **What is done when a tree is built agrees with what evaluation would do**, on every tree and in every session.

A cast that was left out or done at once gives the same value, the same failure and the same session as the node that
casts late; only a number may come as its text.  The same holds of casts to a type given by name.  Texts joined at once
are the texts joined late, and a negated literal is the literal under the operator. -/
theorem folding_agrees_with_evaluation (e : Expr) (s : Session) (span : Option Span) :
    (e.asText.evaluate s = (cast e .string span).evaluate s ∧
      e.asBoolean.evaluate s = (cast e .boolean span).evaluate s ∧
      e.asInt.evaluate s = (cast e .int span).evaluate s ∧
      Outcome.SameNumber (e.asNumber.evaluate s) ((cast e .number span).evaluate s)) ∧
    (∀ name, if NamedType.ofName name = .number then
        Outcome.SameNumber ((e.asNamed name).evaluate s) ((cast e (.other name) span).evaluate s)
      else (e.asNamed name).evaluate s = (cast e (.other name) span).evaluate s) ∧
    (∀ l r, (mkConcat l r true).evaluate s = (mkConcat l r false).evaluate s) ∧
    (∀ span', (mkNot e span').evaluate s = (not e span).evaluate s) ∧
    ∀ op span', (mkSigned op e span').evaluate s = (signed op e span).evaluate s := by
  refine ⟨⟨evaluate_asText e span s, evaluate_asBoolean e span s, evaluate_asInt e span s, evaluate_asNumber e span s⟩,
    ?_, ?_, ?_, ?_⟩
  · exact fun name => evaluate_asNamed e name span s
  · exact fun l r => evaluate_mkConcat l r s
  · exact fun span' => evaluate_mkNot e span' span s
  · exact fun op span' => evaluate_mkSigned op e span' span s

end Expr

end LooseExpr
