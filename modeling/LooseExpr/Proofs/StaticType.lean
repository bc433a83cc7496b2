import LooseExpr.Expr.Build
import LooseExpr.Proofs.Decimal.Normal
import LooseExpr.Proofs.Evaluation
import LooseExpr.Proofs.TypeNames
/-!
# Static types are sound

`Expr.staticType` is read off a tree before anything is evaluated.  `Value.Fits` says what it promises about the value:
a number may come as its canonical text, and the type of null promises something only where the settings know null.
The promise is kept by every evaluation that has a value (`Expr.evaluate_fits_staticType`).  Only a conditional hands on
a value of another node, so only there is an induction needed.
-/
namespace LooseExpr

/-- What a static type promises about a value. -/
def Value.Fits (settings : Settings) (v : Value) : StaticType → Prop
  | .any => True
  | .string => ∃ s, v = .text s
  | .number => (∃ d, v = .number d) ∨ ∃ d : Decimal, d.Normal ∧ v = .text d.toText
  | .boolean => ∃ b, v = .bool b
  | .int => ∃ n : Int32, v = .ofInt n.toInt
  | .long => ∃ n : Int64, v = .ofInt n.toInt
  | .null => settings.nullSupport = true → v = .null

/-- **A cast gives a value of its type.** -/
theorem CastTarget.apply_fits (settings : Settings) {target : CastTarget} {v w : Value} (h : target.apply v = .ok w) :
    w.Fits settings target.staticType := by
  cases target with
  | number =>
    obtain ⟨d, -, hw⟩ := ok_of_bind h
    cases hw
    exact .inl ⟨d, rfl⟩
  | string =>
    obtain ⟨s, -, hw⟩ := ok_of_bind h
    cases hw
    exact ⟨s, rfl⟩
  | boolean =>
    obtain ⟨b, -, hw⟩ := ok_of_bind h
    cases hw
    exact ⟨b, rfl⟩
  | int =>
    obtain ⟨n, -, hw⟩ := ok_of_bind h
    cases hw
    exact ⟨n, rfl⟩
  | other name =>
    rw [staticType_other]
    by_cases hname : NamedType.ofName name = .string
    · rw [if_pos hname]
      unfold apply at h
      simp only [Value.toNamed_eq, hname] at h
      obtain ⟨s, -, hw⟩ := ok_of_bind h
      cases hw
      exact ⟨s, rfl⟩
    · rw [if_neg hname]
      trivial

/-- **A constant has a value of its type**; the word for null only where the settings know null. -/
theorem Constant.lower_fits {settings : Settings} {c : Constant} {s s' : Session} {v : Value}
    (h : ((c.lower settings).resolve false).run s = (.ok v, s')) : v.Fits settings c.staticType := by
  cases c with
  | boolean b =>
    rw [lower, Ref.resolve, Eval.run_pure] at h
    cases h
    exact ⟨b, rfl⟩
  | string t =>
    rw [lower, Ref.resolve, Eval.run_pure] at h
    cases h
    exact ⟨t, rfl⟩
  | number d =>
    rw [lower, Ref.resolve, Eval.run_pure] at h
    cases h
    exact .inl ⟨d, rfl⟩
  | integer n =>
    rw [lower, Ref.resolve, Eval.run_pure] at h
    cases h
    exact ⟨n, rfl⟩
  | long n =>
    rw [lower, Ref.resolve, Eval.run_pure] at h
    cases h
    exact ⟨n, rfl⟩
  | null =>
    rw [lower, Ref.resolve, Eval.run_pure] at h
    cases h
    exact fun _ => rfl
  | nullWord =>
    intro hnull
    rw [lower, if_pos hnull, Ref.resolve, Eval.run_pure] at h
    cases h
    rfl
  | empty =>
    rw [lower, Ref.resolve, Eval.run_pure] at h
    cases h
    exact ⟨"", rfl⟩

/-- **The two values of a compound assignment have its type**, the old one as much as the new one. -/
theorem Eval.combine_fits {op : Option NumberOp} {current operand before after : Value} {s s' : Session}
    (settings : Settings) (kind : AssignKind)
    (h : (Eval.combine op current operand).run s = (.ok (before, after), s')) :
    (kind.choose before after).Fits settings (if op.isSome then .number else .string) := by
  cases op with
  | some op =>
    unfold Eval.combine at h
    obtain ⟨d, -, h⟩ := Eval.ok_of_run_lift_bind h
    obtain ⟨d', -, h⟩ := Eval.ok_of_run_lift_bind h
    obtain ⟨d'', t, -, h⟩ := Eval.ok_of_run_bind h
    cases h
    cases kind with
    | pre => exact .inl ⟨d'', rfl⟩
    | post => exact .inl ⟨d, rfl⟩
  | none =>
    unfold Eval.combine at h
    obtain ⟨text, -, h⟩ := Eval.ok_of_run_lift_bind h
    obtain ⟨text', -, h⟩ := Eval.ok_of_run_lift_bind h
    cases h
    cases kind with
    | pre => exact ⟨text ++ text', rfl⟩
    | post => exact ⟨text, rfl⟩

theorem Eval.compute_normal {op : NumberOp} {l r d : Decimal} {s s' : Session}
    (h : (Eval.compute op l r).run s = (.ok d, s')) : d.Normal := by
  have hrun : (Eval.compute op l r).run s =
      ((op.compute l r s.settings.divisionPrecision.toNat).mapError .arithmetic, s) := rfl
  rw [hrun] at h
  cases hc : op.compute l r s.settings.divisionPrecision.toNat with
  | error why =>
    rw [hc] at h
    cases h
  | ok d' =>
    rw [hc] at h
    cases h
    exact NumberOp.compute_normal hc

/-- **An assignment yields a value of its type.** -/
theorem Ref.assign_fits (settings : Settings) {scope : Scope} {members : List Ref} {op : Option NumberOp} {value : Ref}
    {kind : AssignKind} {s s' : Session} {v : Value}
    (h : ((Ref.assign scope members op value kind).resolve false).run s = (.ok v, s')) :
    v.Fits settings (if op.isSome then .number else .string) := by
  have hrest : ∀ {t : Session}, (do
      let keys ← Ref.keys members
      let current ← Eval.readDefined scope keys
      let operand ← value.resolve false
      let values ← Eval.combine op current operand
      Eval.writePath scope keys values.2
      return kind.choose values.1 values.2 : Eval Value).run t = (.ok v, s') →
      v.Fits settings (if op.isSome then .number else .string) := by
    intro t h
    obtain ⟨keys, _, -, h⟩ := Eval.ok_of_run_bind h
    obtain ⟨current, _, -, h⟩ := Eval.ok_of_run_bind h
    obtain ⟨operand, _, -, h⟩ := Eval.ok_of_run_bind h
    obtain ⟨⟨before, after⟩, _, hc, h⟩ := Eval.ok_of_run_bind h
    obtain ⟨_, _, -, h⟩ := Eval.ok_of_run_bind h
    cases h
    exact Eval.combine_fits settings kind hc
  rw [Ref.resolve] at h
  split at h
  · obtain ⟨_, _, -, h⟩ := Eval.ok_of_run_bind h
    exact hrest h
  · exact hrest h

/-- **A reference made from a tree resolves to a value of the tree's static type**, in any session. -/
theorem Expr.resolve_fits (settings : Settings) : ∀ (e : Expr) {r : Ref} {s s' : Session} {v : Value},
    e.lower settings = .ok r → (r.resolve false).run s = (.ok v, s') → v.Fits settings e.staticType
  | .literal lit, r, s, s', v, hl, hr => by
    rw [lower] at hl
    cases hl
    exact Constant.lower_fits hr
  | .newStruct, _, _, _, _, _, _ => trivial
  | .newArray, _, _, _, _, _, _ => trivial
  | .var .., _, _, _, _, _, _ => trivial
  | .elvis .., _, _, _, _, _, _ => trivial
  | .cast e target _, r, s, s', v, hl, hr => by
    rw [lower] at hl
    obtain ⟨r', -, hl⟩ := ok_of_bind hl
    cases hl
    rw [Ref.resolve] at hr
    obtain ⟨w, _, -, hr⟩ := Eval.ok_of_run_bind hr
    rw [Eval.run_lift] at hr
    exact CastTarget.apply_fits settings (congrArg Prod.fst hr)
  | .concat l r _, x, s, s', v, hl, hr => by
    rw [lower] at hl
    obtain ⟨l', -, hl⟩ := ok_of_bind hl
    obtain ⟨r', -, hl⟩ := ok_of_bind hl
    cases hl
    rw [Ref.resolve] at hr
    obtain ⟨_, _, -, hr⟩ := Eval.ok_of_run_bind hr
    obtain ⟨left, -, hr⟩ := Eval.ok_of_run_lift_bind hr
    obtain ⟨_, _, -, hr⟩ := Eval.ok_of_run_bind hr
    obtain ⟨right, -, hr⟩ := Eval.ok_of_run_lift_bind hr
    cases hr
    exact ⟨left ++ right, rfl⟩
  | .logic op l r _, x, s, s', v, hl, hr => by
    rw [lower] at hl
    obtain ⟨l', -, hl⟩ := ok_of_bind hl
    obtain ⟨r', -, hl⟩ := ok_of_bind hl
    cases hl
    rw [Ref.resolve] at hr
    obtain ⟨_, _, -, hr⟩ := Eval.ok_of_run_bind hr
    obtain ⟨left, -, hr⟩ := Eval.ok_of_run_lift_bind hr
    split at hr
    · rename_i b hb
      cases hr
      exact ⟨b, rfl⟩
    · obtain ⟨_, _, -, hr⟩ := Eval.ok_of_run_bind hr
      obtain ⟨right, -, hr⟩ := Eval.ok_of_run_lift_bind hr
      cases hr
      exact ⟨_, rfl⟩
  | .arith op l r _, x, s, s', v, hl, hr => by
    rw [lower] at hl
    obtain ⟨l', -, hl⟩ := ok_of_bind hl
    obtain ⟨r', -, hl⟩ := ok_of_bind hl
    cases hl
    rw [Ref.resolve] at hr
    obtain ⟨_, _, -, hr⟩ := Eval.ok_of_run_bind hr
    obtain ⟨_, _, -, hr⟩ := Eval.ok_of_run_bind hr
    obtain ⟨left, -, hr⟩ := Eval.ok_of_run_lift_bind hr
    obtain ⟨_, _, -, hr⟩ := Eval.ok_of_run_bind hr
    obtain ⟨right, -, hr⟩ := Eval.ok_of_run_lift_bind hr
    obtain ⟨d, _, hd, hr⟩ := Eval.ok_of_run_bind hr
    cases hr
    exact .inr ⟨d, Eval.compute_normal hd, rfl⟩
  | .decision op l r _, x, s, s', v, hl, hr => by
    rw [lower] at hl
    obtain ⟨l', -, hl⟩ := ok_of_bind hl
    obtain ⟨r', -, hl⟩ := ok_of_bind hl
    cases hl
    rw [Ref.resolve] at hr
    obtain ⟨_, _, -, hr⟩ := Eval.ok_of_run_bind hr
    obtain ⟨_, _, -, hr⟩ := Eval.ok_of_run_bind hr
    obtain ⟨b, -, hr⟩ := Eval.ok_of_run_lift_bind hr
    cases hr
    exact ⟨b, rfl⟩
  | .not e _, x, s, s', v, hl, hr => by
    rw [lower] at hl
    obtain ⟨e', -, hl⟩ := ok_of_bind hl
    cases hl
    rw [Ref.resolve] at hr
    obtain ⟨_, _, -, hr⟩ := Eval.ok_of_run_bind hr
    obtain ⟨b, -, hr⟩ := Eval.ok_of_run_lift_bind hr
    cases hr
    exact ⟨!b, rfl⟩
  | .signed op e _, x, s, s', v, hl, hr => by
    rw [lower] at hl
    obtain ⟨e', -, hl⟩ := ok_of_bind hl
    cases hl
    rw [Ref.resolve] at hr
    obtain ⟨_, _, -, hr⟩ := Eval.ok_of_run_bind hr
    obtain ⟨d, -, hr⟩ := Eval.ok_of_run_lift_bind hr
    cases hr
    exact .inl ⟨op.apply d, rfl⟩
  | .assign scope members _ op value kind _, x, s, s', v, hl, hr => by
    rw [lower] at hl
    split at hl
    · cases hl
    obtain ⟨members', -, hl⟩ := ok_of_bind hl
    obtain ⟨value', -, hl⟩ := ok_of_bind hl
    cases hl
    have hfit := Ref.assign_fits settings hr
    cases op <;> exact hfit
  | .conditional c l r _, x, s, s', v, hl, hr => by
    rw [lower] at hl
    obtain ⟨c', -, hl⟩ := ok_of_bind hl
    obtain ⟨l', hl', hl⟩ := ok_of_bind hl
    obtain ⟨r', hr', hl⟩ := ok_of_bind hl
    cases hl
    rw [Ref.resolve] at hr
    obtain ⟨_, _, -, hr⟩ := Eval.ok_of_run_bind hr
    obtain ⟨b, -, hr⟩ := Eval.ok_of_run_lift_bind hr
    unfold staticType
    by_cases htype : l.staticType = r.staticType
    · rw [if_pos htype]
      split at hr
      · exact resolve_fits settings l hl' hr
      · rw [htype]
        exact resolve_fits settings r hr' hr
    · rw [if_neg htype]
      trivial

/-- **Static types are sound**: an evaluation that has a value has one that fits the static type of the tree, in every
session. -/
theorem Expr.evaluate_fits_staticType (e : Expr) (s s' : Session) (v : Value) (h : e.evaluate s = (.ok v, s')) :
    v.Fits s.settings e.staticType := by
  obtain ⟨r, hlower, hrun⟩ := ok_of_evaluate h
  exact resolve_fits s.settings e hlower hrun

/-- A session in which the variable `x` has a value. -/
def Session.withX (v : Value) : Session := (Session.new {} false).setVariable .vars ⟨"x"⟩ v

/-- Counts `x` up, and has its old value; or adds. -/
def Expr.incrementOrSum : Expr :=
  .mkConditional (.literal ⟨.boolean true, none⟩)
    (.mkAssign (.ofNames .vars [.literal ⟨.string "X", none⟩] none) (some .plus) (.literal ⟨.integer 1, none⟩) .post
      none)
    (.mkArith .plus (.literal ⟨.integer 1, none⟩) (.literal ⟨.string "2", none⟩))

set_option maxRecDepth 10000 in
theorem Expr.incrementOrSum_fits_number :
    incrementOrSum.evaluate (.withX (.text "5")) = (.ok (.number ⟨5, 0⟩), .withX (.number ⟨6, 0⟩)) ∧
      (Value.number ⟨5, 0⟩).Fits {} .number :=
  ⟨by rfl, evaluate_fits_staticType incrementOrSum (.withX (.text "5")) (.withX (.number ⟨6, 0⟩)) _ (by rfl)⟩

end LooseExpr
