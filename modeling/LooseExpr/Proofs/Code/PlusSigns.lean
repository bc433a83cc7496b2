import LooseExpr.Proofs.Code.Agreement
import LooseExpr.Proofs.Comparison
import LooseExpr.Proofs.Nodes
/-!
# Plus signs

A plus sign makes a number of what stands behind it, but no code is emitted for it.  Where its operand is a number
already this is the same; a sum, though, is a text, and so the code of a sum with a plus sign before it is the code of
another tree with another value (`CodeUnit.plus_sign_not_in_code`).

Everywhere else the code decides how a tree is evaluated (`CodeUnit.code_determines_evaluation`).  A plus sign does not
show if its operand is a number, or if the operator around it takes numbers and their texts for the same
(`Expr.hidesPlus`).  Then the tree has a twin without plus signs, with the same code and the same evaluation
(`Expr.exists_twin`), and a stretch of code carries one computation at most (`Carries.unique`).
-/
namespace LooseExpr

/-! ## Where the difference is seen -/

/-- The type promises a value without a handle. -/
def StaticType.promisesSimple : StaticType → Bool
  | any => false
  | null => false
  | _ => true

theorem Value.isComplex_of_fits {settings : Settings} {v : Value} {type : StaticType} (h : v.Fits settings type)
    (htype : type.promisesSimple = true) : v.isComplex = false := by
  cases type with
  | any => cases htype
  | null => cases htype
  | number => rcases h with ⟨d, rfl⟩ | ⟨d, -, rfl⟩ <;> rfl
  | _ =>
    obtain ⟨x, rfl⟩ := h
    rfl

/-- A comparison tells a number from its text: always if it is a strict one, never if it is about the characters, else
only in the fault for another operand with a handle. -/
def DecisionOp.sees (op : DecisionOp) (other : StaticType) : Bool :=
  match op with
  | eeq => true
  | neeq => true
  | ct => false
  | nct => false
  | _ => !other.promisesSimple

/-- A cast tells a number from its text if it does not convert, but for one to any type, which hands on the value. -/
def CastTarget.sees (target : CastTarget) (seen : Bool) : Bool :=
  match target with
  | other name => if NamedType.ofName name = .any then seen else (NamedType.ofName name).target?.isNone
  | _ => false

section

variable {settings : Settings} {type type' : StaticType} {v v' w w' : Value}

theorem Value.PassesFor.looseOrder_eq (h : w.PassesFor (!type'.promisesSimple) v)
    (h' : w'.PassesFor (!type.promisesSimple) v') (hfits : v.Fits settings type) (hfits' : v'.Fits settings type') :
    w.looseOrder w' = v.looseOrder v' := by
  have hleft : w.looseOrder w' = v.looseOrder w' := by
    cases htype : type'.promisesSimple with
    | true => exact h.looseOrder_left (h'.isComplex_eq.trans (isComplex_of_fits hfits' htype))
    | false =>
      rw [htype] at h
      rw [h.eq_of_seen]
  have hright : v.looseOrder w' = v.looseOrder v' := by
    cases htype : type.promisesSimple with
    | true => exact h'.looseOrder_right (isComplex_of_fits hfits htype)
    | false =>
      rw [htype] at h'
      rw [h'.eq_of_seen]
  exact hleft.trans hright

/-- **A comparison that does not see the difference has the same answer.** -/
theorem DecisionOp.decide_eq {op : DecisionOp} (h : w.PassesFor (op.sees type') v)
    (h' : w'.PassesFor (op.sees type) v') (hfits : v.Fits settings type) (hfits' : v'.Fits settings type') :
    op.decide w w' = op.decide v v' := by
  cases op with
  | eeq | neeq => rw [h.eq_of_seen, h'.eq_of_seen]
  | ct | nct => simp only [decide, h.containsText_eq h']
  | _ => simp only [decide, h.looseOrder_eq h' hfits hfits']

end

namespace Eval

/-- **The runs end alike**: with values that pass for each other or with the same fault, and in the same session. -/
inductive EndAlike (seen : Bool) : Except Fault Value × Session → Except Fault Value × Session → Prop where
  | ok {w v s} : w.PassesFor seen v → EndAlike seen (.ok w, s) (.ok v, s)
  | error {fault s} : EndAlike seen (.error fault, s) (.error fault, s)

namespace EndAlike

variable {α : Type} {seen seen' : Bool} {x y : Eval Value} {f g : Value → Eval Value} {t : Session}

theorem refl (seen : Bool) : ∀ ending, EndAlike seen ending ending
  | (.ok v, _) => .ok (.refl seen v)
  | (.error _, _) => .error

theorem eq_of_seen {ending ending' : Except Fault Value × Session} (h : EndAlike true ending ending') :
    ending = ending' := by
  cases h with
  | ok h => rw [h.eq_of_seen]
  | error => rfl

theorem bind (h : EndAlike seen (x.run t) (y.run t)) (hfg : ∀ w v u, y.run t = (.ok v, u) → w.PassesFor seen v →
    EndAlike seen' ((f w).run u) ((g v).run u)) : EndAlike seen' ((x >>= f).run t) ((y >>= g).run t) := by
  rw [run_bind, run_bind]
  rcases hx : x.run t with ⟨result, u⟩
  rcases hy : y.run t with ⟨result', u'⟩
  rw [hx, hy] at h
  cases h with
  | ok h => exact hfg _ _ _ hy h
  | error => exact .error

theorem after (x : Eval α) {f g : α → Eval Value} (hfg : ∀ a u, EndAlike seen ((f a).run u) ((g a).run u)) :
    EndAlike seen ((x >>= f).run t) ((x >>= g).run t) := by
  rw [run_bind, run_bind]
  rcases x.run t with ⟨result, u⟩
  cases result with
  | ok a => exact hfg a u
  | error fault => exact .error

theorem after_lift {a b : Except Fault α} (h : a = b) {f g : α → Eval Value}
    (hfg : ∀ c u, EndAlike seen ((f c).run u) ((g c).run u)) :
    EndAlike seen ((lift a >>= f).run t) ((lift b >>= g).run t) := by
  rw [h]
  exact after (lift b) hfg

end EndAlike

end Eval

theorem NamedType.target?_ne_other {type : NamedType} {name : String} : type.target? ≠ some (.other name) := by
  cases type <;> simp [target?]

/-- **A cast that does not see the difference** ends alike. -/
theorem CastTarget.apply_endAlike {target : CastTarget} {seen : Bool} {w v : Value} (h : w.PassesFor (target.sees seen) v)
    (t : Session) : Eval.EndAlike seen ((Eval.lift (target.apply w)).run t) ((Eval.lift (target.apply v)).run t) := by
  cases target with
  | other name =>
    simp only [sees] at h
    by_cases hany : NamedType.ofName name = .any
    · rw [if_pos hany] at h
      rw [Expr.apply_other_any hany, Expr.apply_other_any hany]
      exact .ok h
    · rw [if_neg hany] at h
      cases htarget : (NamedType.ofName name).target? with
      | none =>
        rw [htarget] at h
        rw [h.eq_of_seen]
        exact .refl _ _
      | some target =>
        have hplain : ∀ name, target ≠ .other name := by
          rintro name rfl
          exact NamedType.target?_ne_other htarget
        rw [Expr.apply_other target htarget, Expr.apply_other target htarget, h.apply_eq hplain]
        exact .refl _ _
  | _ =>
    rw [h.apply_eq (by simp)]
    exact .refl _ _

/-! ## Trees without variables -/

namespace Expr

/-- A node that needs no variable and, if it is an operator, is one that a builder makes. -/
def SelfContained (settings : Settings) : Expr → Prop
  | literal lit => lit.value.Standalone settings
  | newStruct => True
  | newArray => True
  | cast .. => True
  | var .. => False
  | assign .. => False
  | elvis .. => False
  | node => Built node

/-- The value is a number and not a text, whatever the operands are. -/
def yieldsNumber : Expr → Bool
  | literal lit => lit.value.staticType = .number
  | cast _ target _ => target.staticType = .number
  | signed .. => true
  | conditional _ l r _ => l.yieldsNumber && r.yieldsNumber
  | _ => false

/-- **No plus sign shows**: none stands before a text where it is seen whether that is made a number of. -/
def hidesPlus : Expr → (seen : Bool) → Bool
  | cast e target _, seen => e.hidesPlus (target.sees seen)
  | concat l r _, _ => l.hidesPlus false && r.hidesPlus false
  | logic _ l r _, _ => l.hidesPlus false && r.hidesPlus false
  | arith _ l r _, _ => l.hidesPlus false && r.hidesPlus false
  | decision op l r _, _ => l.hidesPlus (op.sees r.staticType) && r.hidesPlus (op.sees l.staticType)
  | not e _, _ => e.hidesPlus false
  | signed .minus e _, _ => e.hidesPlus false
  | signed .plus e _, seen => e.hidesPlus seen && (!seen || e.yieldsNumber)
  | conditional c l r _, seen => c.hidesPlus false && l.hidesPlus seen && r.hidesPlus seen
  | _, _ => true

theorem resolve_yieldsNumber {settings : Settings} {e : Expr} (h : e.yieldsNumber = true) {r : Ref}
    (hlower : e.lower settings = .ok r) {s t : Session} {v : Value} (hrun : (r.resolve false).run s = (.ok v, t)) :
    ∃ d, v = .number d := by
  induction e using yieldsNumber.induct generalizing r s with
  | case1 lit =>
    obtain ⟨c, span⟩ := lit
    rw [lower] at hlower
    cases c with
    | number d =>
      cases hlower
      rw [Constant.lower, Ref.resolve] at hrun
      cases hrun
      exact ⟨d, rfl⟩
    | _ => cases h
  | case2 e target span =>
    rw [lower] at hlower
    obtain ⟨r', -, rfl⟩ := ok_of_map hlower
    rw [Ref.resolve] at hrun
    obtain ⟨w, u, -, hrun⟩ := Eval.ok_of_run_bind hrun
    cases target with
    | number =>
      obtain ⟨d, -, hv⟩ := ok_of_bind (congrArg Prod.fst hrun)
      cases hv
      exact ⟨d, rfl⟩
    | other name =>
      rw [yieldsNumber, decide_eq_true_eq, CastTarget.staticType] at h
      split at h <;> cases h
    | _ => cases h
  | case3 op e span =>
    rw [lower] at hlower
    obtain ⟨r', -, rfl⟩ := ok_of_map hlower
    rw [Ref.resolve] at hrun
    obtain ⟨w, u, -, hrun⟩ := Eval.ok_of_run_bind hrun
    obtain ⟨d, -, hrun⟩ := Eval.ok_of_run_lift_bind hrun
    cases hrun
    exact ⟨_, rfl⟩
  | case4 c l r span ihl ihr =>
    rw [yieldsNumber, Bool.and_eq_true] at h
    rw [lower] at hlower
    obtain ⟨c', -, hlower⟩ := ok_of_bind hlower
    obtain ⟨l', r', hl, hr, rfl⟩ := ok_of_map₂ hlower
    rw [Ref.resolve] at hrun
    obtain ⟨w, u, -, hrun⟩ := Eval.ok_of_run_bind hrun
    obtain ⟨b, -, hrun⟩ := Eval.ok_of_run_lift_bind hrun
    cases b with
    | true => exact ihl h.1 hl hrun
    | false => exact ihr h.2 hr hrun
  | case5 e hliteral hcast hsigned hconditional =>
    unfold yieldsNumber at h
    split at h
    next lit => exact absurd rfl (hliteral lit)
    next e target span => exact absurd rfl (hcast e target span)
    next op e span => exact absurd rfl (hsigned op e span)
    next c l r span => exact absurd rfl (hconditional c l r span)
    next => cases h

/-! ## Twins -/

theorem asText_eq_self {e : Expr} (h : e.staticType = .string) : e.asText = e := if_pos h

theorem asBoolean_eq_self {e : Expr} (h : e.staticType = .boolean) : e.asBoolean = e := if_pos h

theorem asNumber_eq_self {e : Expr} (h : e.staticType = .number) : e.asNumber = e := if_pos h

/-- A literal that does not convert is put under a cast, so what it becomes is not a literal. -/
theorem literal?_converted {e : Expr} {type : StaticType} {convert : Constant → Option Constant} {target : CastTarget}
    (htype : ∀ c : Constant, c.staticType = type → convert c ≠ none)
    (h : e.literal?.bind (fun lit => convert lit.value) = none) :
    (if e.staticType = type then e else (e.fold? convert).getD (e.wrap target)).literal? = none := by
  cases e with
  | literal lit =>
    have hconvert : convert lit.value = none := h
    have hother : (literal lit).staticType ≠ type := fun heq => htype lit.value heq hconvert
    rw [if_neg hother, fold?, hconvert]
    rfl
  | _ => split <;> rfl

theorem literal?_asNumber {e : Expr} (h : e.literal?.bind (fun lit => lit.value.decimal?) = none) :
    e.asNumber.literal? = none := by
  refine literal?_converted (fun c htype => ?_) ?_
  · cases c <;> simp_all [Constant.staticType, Constant.decimal?]
  · cases hlit : e.literal? <;> simp_all

theorem literal?_asBoolean {e : Expr} (h : e.literal?.bind (fun lit => lit.value.boolean?) = none) :
    e.asBoolean.literal? = none := by
  refine literal?_converted (fun c htype => ?_) ?_
  · cases c <;> simp_all [Constant.staticType, Constant.boolean?]
  · cases hlit : e.literal? <;> simp_all

/-- What else the builders see to: the single operand has the type it is coerced to, and is not a literal. -/
def OperandReady : Expr → Prop
  | not e _ => e.staticType = .boolean ∧ e.literal? = none
  | signed _ e _ => e.staticType = .number ∧ e.literal? = none
  | conditional c _ _ _ => c.staticType = .boolean
  | _ => True

theorem Built.operandReady {e : Expr} (h : Built e) : e.OperandReady := by
  cases h with
  | concat l r atOnce h =>
    subst h
    unfold mkConcat
    split <;> trivial
  | not operand span h =>
    subst h
    unfold mkNot
    simp only
    split
    next => trivial
    next hnone => exact ⟨staticType_asBoolean operand, literal?_asBoolean hnone⟩
  | signed op operand span h =>
    subst h
    unfold mkSigned
    simp only
    split
    next => trivial
    next hnone => exact ⟨staticType_asNumber operand, literal?_asNumber hnone⟩
  | conditional c l r h =>
    subst h
    exact staticType_asBoolean c
  | logic op l r h | arith op l r h | decision op l r h =>
    subst h
    trivial

/-- The trees have references that end alike in every session. -/
def EndAlike (s : Session) (seen : Bool) (e' e : Expr) : Prop :=
  ∃ r' r, e'.lower s.settings = .ok r' ∧ e.lower s.settings = .ok r ∧
    ∀ t, Eval.EndAlike seen ((r'.resolve false).run t) ((r.resolve false).run t)

section

variable {s : Session} {seen seenLeft seenRight : Bool} {node node' e e' l l' r r' : Expr}

theorem EndAlike.unary (ref : Ref → Ref) (h : EndAlike s seenLeft e' e)
    (hlower' : node'.lower s.settings = do return ref (← e'.lower s.settings))
    (hlower : node.lower s.settings = do return ref (← e.lower s.settings))
    (hends : ∀ {a' a : Ref}, e.lower s.settings = .ok a →
      (∀ t, Eval.EndAlike seenLeft ((a'.resolve false).run t) ((a.resolve false).run t)) →
      ∀ t, Eval.EndAlike seen (((ref a').resolve false).run t) (((ref a).resolve false).run t)) :
    EndAlike s seen node' node := by
  obtain ⟨a', a, ha', ha, halike⟩ := h
  refine ⟨ref a', ref a, ?_, ?_, hends ha halike⟩
  · rw [hlower', ha']
    rfl
  · rw [hlower, ha]
    rfl

theorem EndAlike.binary (ref : Ref → Ref → Ref) (hl : EndAlike s seenLeft l' l) (hr : EndAlike s seenRight r' r)
    (hlower' : node'.lower s.settings = do return ref (← l'.lower s.settings) (← r'.lower s.settings))
    (hlower : node.lower s.settings = do return ref (← l.lower s.settings) (← r.lower s.settings))
    (hends : ∀ {a' a b' b : Ref}, l.lower s.settings = .ok a → r.lower s.settings = .ok b →
      (∀ t, Eval.EndAlike seenLeft ((a'.resolve false).run t) ((a.resolve false).run t)) →
      (∀ t, Eval.EndAlike seenRight ((b'.resolve false).run t) ((b.resolve false).run t)) →
      ∀ t, Eval.EndAlike seen (((ref a' b').resolve false).run t) (((ref a b).resolve false).run t)) :
    EndAlike s seen node' node := by
  obtain ⟨a', a, ha', ha, haalike⟩ := hl
  obtain ⟨b', b, hb', hb, hbalike⟩ := hr
  refine ⟨ref a' b', ref a b, ?_, ?_, hends ha hb haalike hbalike⟩
  · rw [hlower', ha', hb']
    rfl
  · rw [hlower, ha, hb]
    rfl

end

/-- **A twin of a tree**: a tree without plus signs, with the same code, that ends alike. -/
structure Twin (s : Session) (seen : Bool) (e' e : Expr) : Prop where
  standalone : e'.Standalone s
  code : ∀ env, e'.emit env = e.emit env
  type : e'.staticType = e.staticType
  literal : e'.literal? = e.literal?
  ends : EndAlike s seen e' e

namespace Twin

variable {s : Session} {seen : Bool} {e e' c c' l l' r r' : Expr} {span : Option Span}

theorem self {ref : Ref} (h : e.Standalone s) (hlower : e.lower s.settings = .ok ref) : Twin s seen e e :=
  ⟨h, fun _ => rfl, rfl, rfl, ref, ref, hlower, hlower, fun _ => .refl seen _⟩

theorem cast {target : CastTarget} (h : Twin s (target.sees seen) e' e) :
    Twin s seen (.cast e' target span) (.cast e target span) where
  standalone := h.standalone
  code env := by rw [emit, emit, h.code, literalText?, literalText?, h.literal]
  type := rfl
  literal := rfl
  ends := by
    refine h.ends.unary (.cast · target) (by rw [lower]) (by rw [lower]) fun _ hends t => ?_
    rw [Ref.resolve, Ref.resolve]
    exact (hends t).bind fun w v u _ hpasses => target.apply_endAlike hpasses u

theorem not (h : Twin s false e' e) (hready : OperandReady (.not e span)) :
    Twin s seen (.not e' e'.span) (.not e span) where
  standalone := by
    refine ⟨.not e' none ?_, h.standalone⟩
    unfold mkNot
    rw [h.literal, hready.2, asBoolean_eq_self (h.type.trans hready.1)]
    rfl
  code env := by rw [emit, emit, h.code]
  type := rfl
  literal := rfl
  ends := by
    refine h.ends.unary .not (by rw [lower]) (by rw [lower]) fun _ hends t => ?_
    rw [Ref.resolve, Ref.resolve]
    exact (hends t).bind fun w v u _ hpasses => .after_lift hpasses.toBoolean_eq fun b u => .refl seen _

theorem minus (h : Twin s false e' e) (hready : OperandReady (.signed .minus e span)) :
    Twin s seen (.signed .minus e' e'.span) (.signed .minus e span) where
  standalone := by
    refine ⟨rfl, .signed .minus e' none ?_, h.standalone⟩
    unfold mkSigned
    rw [h.literal, hready.2, asNumber_eq_self (h.type.trans hready.1)]
    rfl
  code env := by rw [emit, emit, h.code]
  type := rfl
  literal := rfl
  ends := by
    refine h.ends.unary (.signed .minus) (by rw [lower]) (by rw [lower]) fun _ hends t => ?_
    rw [Ref.resolve, Ref.resolve]
    exact (hends t).bind fun w v u _ hpasses => .after_lift hpasses.toDecimal_eq fun d u => .refl seen _

/-- **The twin of a tree with a plus sign before it is the twin of the tree.** -/
theorem plus (h : Twin s seen e' e) (hready : OperandReady (.signed .plus e span))
    (hnumber : seen = true → e.yieldsNumber = true) : Twin s seen e' (.signed .plus e span) where
  standalone := h.standalone
  code env := by rw [h.code, emit]
  type := h.type.trans hready.1
  literal := h.literal.trans hready.2
  ends := by
    obtain ⟨a', a, ha', ha, hends⟩ := h.ends
    refine ⟨a', .signed .plus a, ha', by rw [lower, ha]; rfl, fun t => ?_⟩
    have hend := hends t
    rcases hw : (a'.resolve false).run t with ⟨result', u'⟩
    rcases hv : (a.resolve false).run t with ⟨result, u⟩
    rw [hw, hv] at hend
    rw [Ref.resolve, Eval.run_bind, hv]
    cases hend with
    | error => exact .error
    | @ok w v _ hpasses =>
      have hfits := resolve_fits s.settings e ha hv
      rw [hready.1] at hfits
      rcases hfits with ⟨d, rfl⟩ | ⟨d, hd, rfl⟩
      · exact .ok hpasses
      · -- a text that a plus sign makes a number of, so this is not seen
        have hseen : seen = false := by
          refine Bool.eq_false_iff.2 fun hseen => ?_
          obtain ⟨d', hd'⟩ := resolve_yieldsNumber (hnumber hseen) ha hv
          cases hd'
        have hw : w = .text d.toText := by
          rcases hpasses with hsame | ⟨-, d', -, -, hnumber⟩
          · exact hsame
          · cases hnumber
        simp only [Value.toDecimal_toText hd, Eval.run_lift_ok_bind]
        exact .ok (.inr ⟨hseen, d, hd, hw, rfl⟩)

theorem concat (hl : Twin s false l' l) (hr : Twin s false r' r) (htyped : OperandsTyped (.concat l r span)) :
    Twin s seen (.concat l' r' (spanOf l' r')) (.concat l r span) where
  standalone := by
    refine ⟨.concat l' r' false ?_, hl.standalone, hr.standalone⟩
    unfold mkConcat
    rw [asText_eq_self (hl.type.trans htyped.1), asText_eq_self (hr.type.trans htyped.2)]
  code env := by rw [emit, emit, hl.code, hr.code]
  type := rfl
  literal := rfl
  ends := by
    refine hl.ends.binary .concat hr.ends (by rw [lower]) (by rw [lower]) fun _ _ hlends hrends t => ?_
    rw [Ref.resolve, Ref.resolve]
    refine (hlends t).bind fun w v u _ hv => .after_lift hv.toText_eq fun text u => ?_
    exact (hrends u).bind fun w v u _ hv => .after_lift hv.toText_eq fun text' u => .refl seen _

theorem logic {op : BoolOp} (hl : Twin s false l' l) (hr : Twin s false r' r)
    (htyped : OperandsTyped (.logic op l r span)) :
    Twin s seen (.logic op l' r' (spanOf l' r')) (.logic op l r span) where
  standalone := by
    refine ⟨.logic op l' r' ?_, hl.standalone, hr.standalone⟩
    rw [mkLogic, asBoolean_eq_self (hl.type.trans htyped.1), asBoolean_eq_self (hr.type.trans htyped.2)]
  code env := by rw [emit, emit, hl.code, hr.code]
  type := rfl
  literal := rfl
  ends := by
    refine hl.ends.binary (.logic op) hr.ends (by rw [lower]) (by rw [lower]) fun _ _ hlends hrends t => ?_
    rw [Ref.resolve, Ref.resolve]
    refine (hlends t).bind fun w v u _ hv => .after_lift hv.toBoolean_eq fun b u => ?_
    split
    · exact .refl seen _
    · exact (hrends u).bind fun w v u _ hv => .after_lift hv.toBoolean_eq fun b' u => .refl seen _

theorem arith {op : NumberOp} (hfree : s.limited = false) (hl : Twin s false l' l) (hr : Twin s false r' r)
    (htyped : OperandsTyped (.arith op l r span)) :
    Twin s seen (.arith op l' r' (spanOf l' r')) (.arith op l r span) where
  standalone := by
    refine ⟨hfree, .arith op l' r' ?_, hl.standalone, hr.standalone⟩
    rw [mkArith, asNumber_eq_self (hl.type.trans htyped.1), asNumber_eq_self (hr.type.trans htyped.2)]
  code env := by rw [emit, emit, hl.code, hr.code]
  type := rfl
  literal := rfl
  ends := by
    refine hl.ends.binary (.arith op) hr.ends (by rw [lower]) (by rw [lower]) fun _ _ hlends hrends t => ?_
    rw [Ref.resolve, Ref.resolve]
    refine .after _ fun _ t => ?_
    refine (hlends t).bind fun w v u _ hv => .after_lift hv.toDecimal_eq fun d u => ?_
    refine (hrends u).bind fun w v u _ hv => .after_lift hv.toDecimal_eq fun d' u => .refl seen _

theorem decision {op : DecisionOp} (hl : Twin s (op.sees r.staticType) l' l) (hr : Twin s (op.sees l.staticType) r' r) :
    Twin s seen (.decision op l' r' (spanOf l' r')) (.decision op l r span) where
  standalone := ⟨.decision op l' r' rfl, hl.standalone, hr.standalone⟩
  code env := by rw [emit, emit, hl.code, hr.code]
  type := rfl
  literal := rfl
  ends := by
    refine hl.ends.binary (.decision op) hr.ends (by rw [lower]) (by rw [lower]) fun ha hb hlends hrends t => ?_
    rw [Ref.resolve, Ref.resolve]
    refine (hlends t).bind fun w v u hv hpasses => (hrends u).bind fun w' v' u' hv' hpasses' => ?_
    have hfits := resolve_fits s.settings l ha hv
    have hfits' := resolve_fits s.settings r hb hv'
    exact .after_lift (DecisionOp.decide_eq hpasses hpasses' hfits hfits') fun b u => .refl seen _

theorem conditional (hc : Twin s false c' c) (hl : Twin s seen l' l) (hr : Twin s seen r' r)
    (hready : OperandReady (.conditional c l r span)) :
    Twin s seen (.conditional c' l' r' (Span.merge c'.span r'.span)) (.conditional c l r span) where
  standalone := by
    refine ⟨.conditional c' l' r' ?_, hc.standalone, hl.standalone, hr.standalone⟩
    rw [mkConditional, asBoolean_eq_self (hc.type.trans hready)]
  code env := by rw [emit, emit, hc.code, hl.code, hr.code]
  type := by simp only [staticType, hl.type, hr.type]
  literal := rfl
  ends := by
    obtain ⟨x', x, hx', hx, hcends⟩ := hc.ends
    obtain ⟨a', a, ha', ha, hlends⟩ := hl.ends
    obtain ⟨b', b, hb', hb, hrends⟩ := hr.ends
    refine ⟨.conditional x' a' b', .conditional x a b, by rw [lower, hx', ha', hb']; rfl, by rw [lower, hx, ha, hb]; rfl,
      fun t => ?_⟩
    rw [Ref.resolve, Ref.resolve]
    refine (hcends t).bind fun w v u _ hv => .after_lift hv.toBoolean_eq fun chosen u => ?_
    cases chosen with
    | true => exact hlends u
    | false => exact hrends u

end Twin

/-- **A tree whose plus signs do not show has a twin.** -/
theorem exists_twin {s : Session} (hfree : s.limited = false) : ∀ (e : Expr) (seen : Bool),
    (∀ node ∈ e.nodes, node.SelfContained s.settings) → e.hidesPlus seen = true → ∃ e', Twin s seen e' e
  | .literal lit, seen, h, _ => by
    have hlit : lit.value.Standalone s.settings := h (.literal lit) List.mem_cons_self
    exact ⟨_, .self hlit (by rw [lower]; rfl)⟩
  | .newStruct, seen, _, _ => ⟨_, .self trivial (by rw [lower]; rfl)⟩
  | .newArray, seen, _, _ => ⟨_, .self trivial (by rw [lower]; rfl)⟩
  | .cast e target span, seen, h, hplus => by
    rw [nodes, List.forall_mem_cons] at h
    rw [hidesPlus] at hplus
    obtain ⟨e', he⟩ := exists_twin hfree e _ h.2 hplus
    exact ⟨_, he.cast⟩
  | .concat l r span, seen, h, hplus => by
    rw [nodes, List.forall_mem_cons, List.forall_mem_append] at h
    rw [hidesPlus, Bool.and_eq_true] at hplus
    obtain ⟨hbuilt, hlnodes, hrnodes⟩ := h
    obtain ⟨l', hl⟩ := exists_twin hfree l _ hlnodes hplus.1
    obtain ⟨r', hr⟩ := exists_twin hfree r _ hrnodes hplus.2
    exact ⟨_, hl.concat hr (Built.operandsTyped hbuilt)⟩
  | .logic op l r span, seen, h, hplus => by
    rw [nodes, List.forall_mem_cons, List.forall_mem_append] at h
    rw [hidesPlus, Bool.and_eq_true] at hplus
    obtain ⟨hbuilt, hlnodes, hrnodes⟩ := h
    obtain ⟨l', hl⟩ := exists_twin hfree l _ hlnodes hplus.1
    obtain ⟨r', hr⟩ := exists_twin hfree r _ hrnodes hplus.2
    exact ⟨_, hl.logic hr (Built.operandsTyped hbuilt)⟩
  | .arith op l r span, seen, h, hplus => by
    rw [nodes, List.forall_mem_cons, List.forall_mem_append] at h
    rw [hidesPlus, Bool.and_eq_true] at hplus
    obtain ⟨hbuilt, hlnodes, hrnodes⟩ := h
    obtain ⟨l', hl⟩ := exists_twin hfree l _ hlnodes hplus.1
    obtain ⟨r', hr⟩ := exists_twin hfree r _ hrnodes hplus.2
    exact ⟨_, hl.arith hfree hr (Built.operandsTyped hbuilt)⟩
  | .decision op l r span, seen, h, hplus => by
    rw [nodes, List.forall_mem_cons, List.forall_mem_append] at h
    rw [hidesPlus, Bool.and_eq_true] at hplus
    obtain ⟨-, hlnodes, hrnodes⟩ := h
    obtain ⟨l', hl⟩ := exists_twin hfree l _ hlnodes hplus.1
    obtain ⟨r', hr⟩ := exists_twin hfree r _ hrnodes hplus.2
    exact ⟨_, hl.decision hr⟩
  | .not e span, seen, h, hplus => by
    rw [nodes, List.forall_mem_cons] at h
    rw [hidesPlus] at hplus
    obtain ⟨e', he⟩ := exists_twin hfree e _ h.2 hplus
    exact ⟨_, he.not (Built.operandReady h.1)⟩
  | .signed .minus e span, seen, h, hplus => by
    rw [nodes, List.forall_mem_cons] at h
    rw [hidesPlus] at hplus
    obtain ⟨e', he⟩ := exists_twin hfree e _ h.2 hplus
    exact ⟨_, he.minus (Built.operandReady h.1)⟩
  | .signed .plus e span, seen, h, hplus => by
    rw [nodes, List.forall_mem_cons] at h
    rw [hidesPlus, Bool.and_eq_true] at hplus
    obtain ⟨e', he⟩ := exists_twin hfree e _ h.2 hplus.1
    refine ⟨_, he.plus (Built.operandReady h.1) fun hseen => ?_⟩
    simpa [hseen] using hplus.2
  | .conditional c l r span, seen, h, hplus => by
    rw [nodes, List.forall_mem_cons, List.forall_mem_append, List.forall_mem_append] at h
    rw [hidesPlus, Bool.and_eq_true, Bool.and_eq_true] at hplus
    obtain ⟨hbuilt, hcnodes, hlnodes, hrnodes⟩ := h
    obtain ⟨c', hc⟩ := exists_twin hfree c _ hcnodes hplus.1.1
    obtain ⟨l', hl⟩ := exists_twin hfree l _ hlnodes hplus.1.2
    obtain ⟨r', hr⟩ := exists_twin hfree r _ hrnodes hplus.2
    exact ⟨_, hc.conditional hl hr (Built.operandReady hbuilt)⟩
  | .var .., _, h, _ => (h _ List.mem_cons_self).elim
  | .assign .., _, h, _ => (h _ List.mem_cons_self).elim
  | .elvis .., _, h, _ => (h _ List.mem_cons_self).elim

end Expr

/-! ## The code decides -/

/-- **Code that runs to its end carries one computation at most.** -/
theorem Carries.unique {code : Array Instr} {place : Nat} {stack below : List Value} {s : Session} {x y : Eval Value}
    (hx : Carries code place stack code.size below s x) (hy : Carries code place stack code.size below s y) :
    x.run s = y.run s := by
  unfold Carries at hx hy
  rcases hxrun : x.run s with ⟨result, t⟩
  rcases hyrun : y.run s with ⟨result', t'⟩
  simp only [hxrun, hyrun] at hx hy
  cases result with
  | ok v =>
    have hruns := hx _ _ (.stop (v :: below) t)
    cases result' with
    | ok v' =>
      obtain ⟨hending, hsession⟩ := hruns.unique (hy _ _ (.stop (v' :: below) t'))
      cases hending
      rw [hsession]
    | error fault => cases (hruns.unique hy).1
  | error fault =>
    cases result' with
    | ok v' => cases (hx.unique (hy _ _ (.stop (v' :: below) t'))).1
    | error fault' =>
      obtain ⟨hending, hsession⟩ := hx.unique hy
      cases hending
      rw [hsession]

namespace CodeUnit

/-- The code of a tree with a twin carries the resolving of its reference, the plus signs included. -/
theorem write_carries {s : Session} {e e' : Expr} (h : e'.Twin s true e) (name : String) :
    ∃ r, e.lower s.settings = .ok r ∧
      Carries ((new s.settings name).write e).2.code 0 [] ((new s.settings name).write e).2.code.size [] s
        (r.resolve false) := by
  obtain ⟨r', r, hlower', hlower, hends⟩ := h.ends
  obtain ⟨r'', hlower'', hcomputes⟩ := e'.emit_computes s ⟨s.settings, name⟩ rfl h.standalone
  cases hlower'.symm.trans hlower''
  obtain ⟨part, hpart, hcarries⟩ := hcomputes 0 .empty
  rw [h.code] at hpart
  have hat : CodeAt part.toArray 0 part := by
    intro n i hi
    rwa [Nat.zero_add, List.getElem?_toArray]
  have hcarried := (hcarries part.toArray hat [] s rfl).congr (hends s).eq_of_seen
  rw [Nat.zero_add, ← List.size_toArray] at hcarried
  refine ⟨r, hlower, ?_⟩
  rw [(write_new hpart).2]
  exact hcarried

/-- **The code decides how a tree is evaluated**, if it needs no variables and none of its plus signs shows: two trees
with the same code in new units of one name have the same value, or the same failure, and leave the same session. -/
theorem code_determines_evaluation (e e' : Expr) (s : Session) (name : String) (hfree : s.limited = false)
    (he : ∀ node ∈ e.nodes, node.SelfContained s.settings) (he' : ∀ node ∈ e'.nodes, node.SelfContained s.settings)
    (hplus : e.hidesPlus true = true) (hplus' : e'.hidesPlus true = true)
    (hcode : ((new s.settings name).write e).2.code = ((new s.settings name).write e').2.code) :
    e.evaluate s = e'.evaluate s := by
  obtain ⟨twin, htwin⟩ := e.exists_twin hfree true he hplus
  obtain ⟨twin', htwin'⟩ := e'.exists_twin hfree true he' hplus'
  obtain ⟨r, hlower, hcarries⟩ := write_carries htwin name
  obtain ⟨r', hlower', hcarries'⟩ := write_carries htwin' name
  rw [hcode] at hcarries
  rw [Expr.evaluate_of_lower_ok hlower, Expr.evaluate_of_lower_ok hlower', hcarries.unique hcarries']

end CodeUnit

namespace Expr

def onePlusTwo : Expr := .mkArith .plus (.literal ⟨.integer 1, none⟩) (.literal ⟨.integer 2, none⟩)

/-- The sum of one and two with a plus sign before it. -/
def signedOnePlusTwo : Expr := .mkSigned .plus onePlusTwo none

/-- The expression with the text `x` joined to it. -/
def joinedToX (e : Expr) : Expr := .mkConcat e (.literal ⟨.string "x", none⟩) false

theorem onePlusTwo_selfContained : ∀ node ∈ onePlusTwo.nodes, node.SelfContained {} := by
  have hone : (⟨1, 0⟩ : Decimal).Normal := Decimal.ofInt_normal 1
  have htwo : (⟨2, 0⟩ : Decimal).Normal := Decimal.ofInt_normal 2
  refine List.forall_mem_cons.2 ⟨.arith _ _ _ rfl, List.forall_mem_cons.2 ⟨hone, List.forall_mem_cons.2 ⟨htwo, ?_⟩⟩⟩
  exact fun _ h => absurd h List.not_mem_nil

theorem signedOnePlusTwo_selfContained : ∀ node ∈ signedOnePlusTwo.nodes, node.SelfContained {} :=
  List.forall_mem_cons.2 ⟨.signed .plus onePlusTwo none rfl, onePlusTwo_selfContained⟩

theorem joinedToX_selfContained {e : Expr} (h : ∀ node ∈ e.asText.nodes, node.SelfContained {}) :
    ∀ node ∈ e.joinedToX.nodes, node.SelfContained {} := by
  refine List.forall_mem_cons.2 ⟨.concat _ _ false rfl, List.forall_mem_append.2 ⟨h, fun node hnode => ?_⟩⟩
  cases List.mem_singleton.1 hnode
  trivial

end Expr

namespace CodeUnit

open LooseExpr.Expr (onePlusTwo signedOnePlusTwo onePlusTwo_selfContained signedOnePlusTwo_selfContained
  joinedToX_selfContained)

/-- Joined to a text, a sum and a sum with a plus sign are the same. -/
theorem joined_sum_evaluation :
    ((new {} "unit").write signedOnePlusTwo.joinedToX).2.code = ((new {} "unit").write onePlusTwo.joinedToX).2.code ∧
      signedOnePlusTwo.joinedToX.evaluate (.new {} false) = onePlusTwo.joinedToX.evaluate (.new {} false) := by
  have hsigned := joinedToX_selfContained (e := signedOnePlusTwo)
    (List.forall_mem_cons.2 ⟨trivial, signedOnePlusTwo_selfContained⟩)
  have hsum := joinedToX_selfContained (e := onePlusTwo) (List.forall_mem_cons.2 ⟨trivial, onePlusTwo_selfContained⟩)
  have hcode : ((new {} "unit").write signedOnePlusTwo.joinedToX).2.code =
      ((new {} "unit").write onePlusTwo.joinedToX).2.code := by rfl
  exact ⟨hcode, code_determines_evaluation signedOnePlusTwo.joinedToX onePlusTwo.joinedToX (.new {} false) "unit" rfl
    hsigned hsum (by decide) (by decide) hcode⟩

/-- **A plus sign that shows is not in the code**: a sum and a sum with a plus sign have the same code, but one is a text
and the other a number. -/
theorem plus_sign_not_in_code :
    ¬ ∀ (e e' : Expr) (s : Session) (name : String), s.limited = false →
      (∀ node ∈ e.nodes, node.SelfContained s.settings) → (∀ node ∈ e'.nodes, node.SelfContained s.settings) →
      ((new s.settings name).write e).2.code = ((new s.settings name).write e').2.code →
      e.evaluate s = e'.evaluate s := by
  intro h
  have hsame := h onePlusTwo signedOnePlusTwo (.new {} false) "unit" rfl onePlusTwo_selfContained
    signedOnePlusTwo_selfContained rfl
  have hsum : onePlusTwo.evaluate (.new {} false) = (.ok (.text "3"), .new {} false) := by rfl
  have hsigned : signedOnePlusTwo.evaluate (.new {} false) = (.ok (.number ⟨3, 0⟩), .new {} false) := by rfl
  rw [hsum, hsigned] at hsame
  cases hsame

end CodeUnit

end LooseExpr
