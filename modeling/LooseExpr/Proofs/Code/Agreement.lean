import LooseExpr.Proofs.Code.Emission
import LooseExpr.Proofs.Code.Machine
import LooseExpr.Proofs.TextCasts
import LooseExpr.Proofs.Visit
/-!
# Emitted code agrees with evaluation

`Emit.Computes` says that an emitter succeeds and that its code, at whatever place it stands, carries a computation.
For a tree that needs no variables the computation is the resolving of its reference (`Expr.emit_computes`).

Evaluation coerces a left operand before it resolves the right one, the code coerces both after that.  Only if the first
coercion cannot fail is this the same; the builders see to it, by the static types of the operands.
-/
namespace LooseExpr

namespace Eval

variable {α : Type} {x y : Eval Value} {s : Session}

/-- **A coercion that cannot fail may wait** until the next operand is there. -/
theorem run_lift_later {convert : Value → Except Fault α} {f : α → Value → Eval Value}
    (h : ∀ v t, x.run s = (.ok v, t) → ∃ a, convert v = .ok a) :
    (do
      let l ← x
      let r ← y
      let a ← lift (convert l)
      f a r : Eval Value).run s =
    (do
      let l ← x
      let a ← lift (convert l)
      let r ← y
      f a r : Eval Value).run s := by
  rw [run_bind, run_bind]
  rcases hx : x.run s with ⟨result, t⟩
  cases result with
  | error f => rfl
  | ok v =>
    obtain ⟨a, ha⟩ := h v t hx
    simp only [ha, run_lift_ok_bind]
    rfl

/-- A truth value stays the same when it is read as one. -/
theorem run_lift_toBoolean (h : ∀ v t, x.run s = (.ok v, t) → ∃ b, v = .bool b) :
    (do
      let v ← x
      let b ← lift v.toBoolean
      return .bool b : Eval Value).run s = x.run s := by
  rw [run_bind]
  rcases hx : x.run s with ⟨result, t⟩
  cases result with
  | error f => rfl
  | ok v =>
    obtain ⟨b, rfl⟩ := h v t hx
    rfl

theorem Keeps.limited {result : Except Fault Value} {t : Session} (h : Keeps Session.SameSurroundings x)
    (hx : x.run s = (result, t)) : t.limited = s.limited := by
  have := (h s).2
  rwa [hx] at this

end Eval

namespace Emit

variable {limited : Bool} {a b c : Emit} {x y z : Eval Value} {i : Instr}

/-- **The emitter succeeds, and its code carries the computation** in every session that is restricted or not as
`limited` says. -/
def Computes (limited : Bool) (a : Emit) (x : Eval Value) : Prop :=
  ∀ place keys, ∃ part, a.Yields place keys part keys ∧
    ∀ code, CodeAt code place part → ∀ stack s, s.limited = limited →
      Carries code place stack (place + part.length) stack s x

theorem Computes.congr (ha : a.Computes limited x) (h : ∀ s, s.limited = limited → x.run s = y.run s) :
    a.Computes limited y := by
  intro place keys
  obtain ⟨part, hpart, hcarries⟩ := ha place keys
  exact ⟨part, hpart, fun code hcode stack s hs => (hcarries code hcode stack s hs).congr (h s hs)⟩

theorem push_computes
    (hstep : ∀ place stack, i.step place stack = some (do return (place + 1, (← x) :: stack))) :
    (push i).Computes limited x := by
  intro place keys
  exact ⟨[i], .push i, fun code hcode stack s _ => .single hcode.head (hstep place stack)⟩

theorem Computes.unary {f : Value → Eval Value} (ha : a.Computes limited x)
    (hstep : ∀ place v stack, i.step place (v :: stack) = some (do return (place + 1, (← f v) :: stack))) :
    (a ++ push i).Computes limited (x >>= f) := by
  intro place keys
  obtain ⟨part, hpart, hcarries⟩ := ha place keys
  refine ⟨part ++ [i], hpart.append (.push i), ?_⟩
  intro code hcode stack s hs
  rw [List.length_append, ← Nat.add_assoc]
  exact (hcarries code hcode.left stack s hs).bind fun v _ _ => .single hcode.right.head (hstep _ v stack)

/-- The second operand is computed above the first one. -/
theorem Computes.binary {f : Value → Value → Eval Value} (hkeeps : Eval.Keeps Session.SameSurroundings x)
    (ha : a.Computes limited x) (hb : b.Computes limited y)
    (hstep : ∀ place l r stack, i.step place (r :: l :: stack) = some (do return (place + 1, (← f l r) :: stack))) :
    (a ++ b ++ push i).Computes limited (do
      let l ← x
      let r ← y
      f l r) := by
  intro place keys
  obtain ⟨first, hfirst, hx⟩ := ha place keys
  obtain ⟨second, hsecond, hy⟩ := hb (place + first.length) keys
  refine ⟨first ++ second ++ [i], (hfirst.append hsecond).append (.push i), ?_⟩
  intro code hcode stack s hs
  have hi := hcode.right.head
  rw [List.length_append, ← Nat.add_assoc] at hi
  rw [List.length_append, List.length_append, ← Nat.add_assoc, ← Nat.add_assoc]
  refine (hx code hcode.left.left stack s hs).bind fun l t ht => ?_
  have hlimited : t.limited = limited := (hkeeps.limited ht).trans hs
  refine (hy code hcode.left.right (l :: stack) t hlimited).bind fun r _ _ => ?_
  exact .single hi (hstep _ l r stack)

/-- **A value that is kept, or dropped for another one**, as a jump decides that asks for a truth value. -/
theorem Computes.keepOr (jump : Nat → Instr) (goesOn : Bool → Bool)
    (hkeeps : Eval.Keeps Session.SameSurroundings x) (ha : a.Computes limited x) (hb : b.Computes limited y)
    (hstep : ∀ place target v stack, (jump target).step place (v :: stack) =
      some (do return (if goesOn (← Eval.lift v.toBoolean) then place + 1 else target, stack))) :
    (a ++ push .dup ++ jumpOver jump (push .pop ++ b)).Computes limited (do
      let v ← x
      let b ← Eval.lift v.toBoolean
      if goesOn b then y else return v) := by
  intro place keys
  obtain ⟨first, hfirst, hx⟩ := ha place keys
  obtain ⟨second, hsecond, hy⟩ := hb (place + first.length + 1 + 1 + 1) keys
  have hcopied : (a ++ push .dup).Yields place keys (first ++ [.dup]) keys := hfirst.append (.push .dup)
  have hdropped : (push .pop ++ b).Yields (place + first.length + 1 + 1) keys ([.pop] ++ second) keys :=
    (Yields.push .pop).append hsecond
  have hlength : place + (first ++ [Instr.dup]).length = place + first.length + 1 := by
    rw [List.length_append, ← Nat.add_assoc]
    rfl
  have hjump : (jumpOver jump (push .pop ++ b)).Yields (place + (first ++ [Instr.dup]).length) keys
      (jump (place + first.length + 1 + 1 + (second.length + 1)) :: .pop :: second) keys := by
    rw [hlength]
    exact yields_jumpOver.2 ⟨.pop :: second, hdropped, rfl⟩
  refine ⟨_, hcopied.append hjump, ?_⟩
  intro code hcode stack s hs
  have hrest := hcode.right
  have hstop : ∀ target, place + first.length + 1 + 1 + (second.length + 1) =
      place + (first ++ [Instr.dup] ++ jump target :: .pop :: second).length := by
    intro target
    simp only [List.length_append, List.length_cons, List.length_nil]
    omega
  rw [hlength] at hrest
  rw [← hstop]
  refine (hx code hcode.left.left stack s hs).bind fun v t ht => ?_
  have hlimited : t.limited = limited := (hkeeps.limited ht).trans hs
  -- the copy is for the jump, the value below it is the result if the jump is taken
  refine Carries.silent hcode.left.right.head (Instr.step_dup _ v stack) ?_
  refine Carries.decide hrest.head (hstep _ _ v (v :: stack)) fun b => ?_
  cases goesOn b with
  | false => exact .pure
  | true =>
    refine .silent hrest.tail.head rfl ?_
    have hy' := hy code hrest.tail.tail stack t hlimited
    rw [Nat.add_comm second.length 1, ← Nat.add_assoc]
    exact hy'

/-- **One of two computations**, by a truth value. -/
theorem Computes.branch (hkeeps : Eval.Keeps Session.SameSurroundings x) (hc : c.Computes limited x)
    (ha : a.Computes limited y) (hb : b.Computes limited z) :
    (c ++ Emit.branch a b).Computes limited (do
      let v ← x
      let b ← Eval.lift v.toBoolean
      if b then y else z) := by
  intro place keys
  obtain ⟨test, htest, hx⟩ := hc place keys
  obtain ⟨first, hfirst, hy⟩ := ha (place + test.length + 1) keys
  obtain ⟨second, hsecond, hz⟩ := hb (place + test.length + 1 + first.length + 1) keys
  refine ⟨_, htest.append (yields_branch.2 ⟨first, keys, second, hfirst, hsecond, rfl⟩), ?_⟩
  intro code hcode stack s hs
  have hstop : place + test.length + 1 + first.length + 1 + second.length =
      place + (test ++ .jumpIfFalse (place + test.length + 1 + first.length + 1) ::
        (first ++ .jump (place + test.length + 1 + first.length + 1 + second.length) :: second)).length := by
    simp only [List.length_append, List.length_cons]
    omega
  rw [← hstop]
  refine (hx code hcode.left stack s hs).bind fun v t ht => ?_
  have hlimited : t.limited = limited := (hkeeps.limited ht).trans hs
  refine Carries.decide hcode.right.head rfl fun b => ?_
  cases b with
  | true =>
    -- behind the first way stands the jump past the second one
    exact (hy code hcode.right.tail.left stack t hlimited).thenJump hcode.right.tail.right.head
  | false => exact hz code hcode.right.tail.right.tail stack t hlimited

end Emit

/-! ## Trees that need no variables -/

namespace Expr

/-- A node that one of the builders makes. -/
inductive Built (e : Expr) : Prop
  | concat (l r : Expr) (atOnce : Bool) (h : e = mkConcat l r atOnce)
  | logic (op : BoolOp) (l r : Expr) (h : e = mkLogic op l r)
  | arith (op : NumberOp) (l r : Expr) (h : e = mkArith op l r)
  | decision (op : DecisionOp) (l r : Expr) (h : e = mkDecision op l r)
  | not (operand : Expr) (span : Option Span) (h : e = mkNot operand span)
  | signed (op : SignOp) (operand : Expr) (span : Option Span) (h : e = mkSigned op operand span)
  | conditional (c l r : Expr) (h : e = mkConditional c l r)

/-- The operands that code coerces late have the type they are coerced to. -/
def OperandsTyped : Expr → Prop
  | concat l r _ => l.staticType = .string ∧ r.staticType = .string
  | logic _ l r _ => l.staticType = .boolean ∧ r.staticType = .boolean
  | arith _ l r _ => l.staticType = .number ∧ r.staticType = .number
  | _ => True

theorem staticType_asText (e : Expr) : e.asText.staticType = .string := by
  unfold asText
  by_cases h : e.staticType = .string
  · rw [if_pos h, h]
  · rw [if_neg h]
    rfl

/-- A cast that is folded, or put around the expression, has the type it casts to. -/
theorem staticType_foldOrWrap {e : Expr} {target : CastTarget} {convert : Constant → Option Constant}
    (h : ∀ c c', convert c = some c' → c'.staticType = target.staticType) :
    ((e.fold? convert).getD (e.wrap target)).staticType = target.staticType := by
  cases hfold : e.fold? convert with
  | none => rfl
  | some e' =>
    obtain ⟨lit, value, -, hvalue, rfl⟩ := fold?_eq_some hfold
    exact h lit.value value hvalue

theorem staticType_asBoolean (e : Expr) : e.asBoolean.staticType = .boolean := by
  unfold asBoolean
  by_cases h : e.staticType = .boolean
  · rw [if_pos h, h]
  · rw [if_neg h]
    refine staticType_foldOrWrap fun c c' hc => ?_
    obtain ⟨b, -, rfl⟩ := Option.map_eq_some_iff.1 hc
    rfl

theorem staticType_asNumber (e : Expr) : e.asNumber.staticType = .number := by
  unfold asNumber
  by_cases h : e.staticType = .number
  · rw [if_pos h, h]
  · rw [if_neg h]
    refine staticType_foldOrWrap fun c c' hc => ?_
    obtain ⟨d, -, rfl⟩ := Option.map_eq_some_iff.1 hc
    rfl

/-- **The builders cast the operands.** -/
theorem Built.operandsTyped {e : Expr} (h : Built e) : e.OperandsTyped := by
  cases h with
  | concat l r atOnce h =>
    subst h
    unfold mkConcat
    split
    · trivial
    · exact ⟨staticType_asText l, staticType_asText r⟩
  | logic op l r h =>
    subst h
    exact ⟨staticType_asBoolean l, staticType_asBoolean r⟩
  | arith op l r h =>
    subst h
    exact ⟨staticType_asNumber l, staticType_asNumber r⟩
  | decision op l r h =>
    subst h
    trivial
  | not operand span h =>
    subst h
    unfold mkNot
    simp only
    split <;> trivial
  | signed op operand span h =>
    subst h
    unfold mkSigned
    simp only
    split <;> trivial
  | conditional c l r h =>
    subst h
    trivial

end Expr

/-- The constant needs no variable, and a number among the constants is in its normal form. -/
def Constant.Standalone (settings : Settings) : Constant → Prop
  | number d => d.Normal
  | nullWord => settings.nullSupport = true
  | _ => True

/-- **A tree that needs no variables** in a session: no node reads or writes one, every operator node is one that a
builder makes, no sign is a plus, and there is arithmetic only where the session allows it.  Casts are free. -/
def Expr.Standalone (s : Session) : Expr → Prop
  | literal lit => lit.value.Standalone s.settings
  | newStruct => True
  | newArray => True
  | cast e _ _ => e.Standalone s
  | concat l r span => Built (concat l r span) ∧ l.Standalone s ∧ r.Standalone s
  | logic op l r span => Built (logic op l r span) ∧ l.Standalone s ∧ r.Standalone s
  | arith op l r span => s.limited = false ∧ Built (arith op l r span) ∧ l.Standalone s ∧ r.Standalone s
  | decision op l r span => Built (decision op l r span) ∧ l.Standalone s ∧ r.Standalone s
  | not e span => Built (not e span) ∧ e.Standalone s
  | signed op e span => op = .minus ∧ Built (signed op e span) ∧ e.Standalone s
  | conditional c l r span => Built (conditional c l r span) ∧ c.Standalone s ∧ l.Standalone s ∧ r.Standalone s
  | var .. => False
  | assign .. => False
  | elvis .. => False

/-! ## Node by node -/

theorem Constant.emit_computes {env : Emit.Env} {limited : Bool} {c : Constant} (h : c.Standalone env.settings) :
    (c.emit env).Computes limited ((c.lower env.settings).resolve false) := by
  cases c with
  | number d =>
    rw [emit, lower, Ref.resolve]
    exact Emit.push_computes (Instr.step_pushNumber (Decimal.ofText?_toText h))
  | nullWord =>
    have hnull : env.settings.nullSupport = true := h
    rw [emit, lower, if_pos hnull, if_pos hnull, Ref.resolve]
    exact Emit.push_computes fun _ _ => rfl
  | _ =>
    rw [emit, lower, Ref.resolve]
    exact Emit.push_computes fun _ _ => rfl

namespace Expr

variable {settings : Settings}

/-- **A cast to text of a literal** is the text already. -/
theorem resolve_cast_literalText {e : Expr} {r : Ref} {target : CastTarget} {text : String}
    (hlower : e.lower settings = .ok r) (htarget : target.staticType = .string) (htext : e.literalText? = some text)
    (s : Session) : ((Ref.cast r target).resolve false).run s = (.ok (.text text), s) := by
  obtain ⟨lit, rfl, hlit⟩ := bind_literal?_eq_some htext
  obtain ⟨v, hv, hvtext⟩ := Constant.text?_lower hlit settings
  rw [lower, hv] at hlower
  cases hlower
  rw [Ref.resolve, Ref.resolve, Eval.run_bind, Eval.run_pure]
  simp only [CastTarget.apply_of_staticType_string htarget]
  unfold CastTarget.apply
  rw [hvtext]
  rfl

theorem resolve_text {l : Expr} {r : Ref} (hlower : l.lower settings = .ok r) (htype : l.staticType = .string)
    {s t : Session} {v : Value} (h : (r.resolve false).run s = (.ok v, t)) : ∃ text, v.toText = .ok text := by
  have hfits := resolve_fits settings l hlower h
  rw [htype] at hfits
  obtain ⟨text, rfl⟩ := hfits
  exact ⟨text, rfl⟩

theorem resolve_bool {l : Expr} {r : Ref} (hlower : l.lower settings = .ok r) (htype : l.staticType = .boolean)
    {s t : Session} {v : Value} (h : (r.resolve false).run s = (.ok v, t)) : ∃ b, v = .bool b := by
  have hfits := resolve_fits settings l hlower h
  rw [htype] at hfits
  exact hfits

theorem resolve_decimal {l : Expr} {r : Ref} (hlower : l.lower settings = .ok r) (htype : l.staticType = .number)
    {s t : Session} {v : Value} (h : (r.resolve false).run s = (.ok v, t)) : ∃ d, v.toDecimal = .ok d := by
  have hfits := resolve_fits settings l hlower h
  rw [htype] at hfits
  exact Value.toDecimal_of_fits hfits

/-- **The code of an operator that decides early** keeps the left truth value, or has the right one. -/
theorem run_logic_early {op : BoolOp} {goesOn : Bool → Bool} {l r : Ref} {s : Session}
    (hleft : ∀ v t, (l.resolve false).run s = (.ok v, t) → ∃ b, v = .bool b)
    (hright : ∀ u v t, (r.resolve false).run u = (.ok v, t) → ∃ b, v = .bool b)
    (hstop : ∀ b, goesOn b = false → op.shortCircuit? b = some b)
    (hgo : ∀ b, goesOn b = true → op.shortCircuit? b = none ∧ ∀ b', op.apply b b' = b') :
    (do
      let v ← l.resolve false
      let b ← Eval.lift v.toBoolean
      if goesOn b then r.resolve false else return v : Eval Value).run s =
      ((Ref.logic op l r).resolve false).run s := by
  rw [Ref.resolve, Eval.run_bind, Eval.run_bind]
  rcases hl : (l.resolve false).run s with ⟨result, t⟩
  cases result with
  | error f => rfl
  | ok v =>
    obtain ⟨b, rfl⟩ := hleft v t hl
    have hb : (Value.bool b).toBoolean = .ok b := rfl
    simp only [hb, Eval.run_lift_ok_bind]
    cases hgoes : goesOn b with
    | false =>
      rw [hstop b hgoes]
      rfl
    | true =>
      obtain ⟨hnone, happly⟩ := hgo b hgoes
      rw [hnone]
      simp only [happly]
      exact (Eval.run_lift_toBoolean (hright t)).symm

/-- **The code of a tree that needs no variables carries the resolving of its reference.** -/
theorem emit_computes (s : Session) (env : Emit.Env) (henv : env.settings = s.settings) : ∀ e : Expr, e.Standalone s →
    ∃ r, e.lower s.settings = .ok r ∧ (e.emit env).Computes s.limited (r.resolve false)
  | .literal lit, h => by
    rw [Standalone, ← henv] at h
    rw [lower, emit, ← henv]
    exact ⟨_, rfl, Constant.emit_computes h⟩
  | .newStruct, _ => by
    rw [lower, emit]
    refine ⟨_, rfl, ?_⟩
    rw [Ref.resolve]
    exact Emit.push_computes fun _ _ => rfl
  | .newArray, _ => by
    rw [lower, emit]
    refine ⟨_, rfl, ?_⟩
    rw [Ref.resolve]
    exact Emit.push_computes fun _ _ => rfl
  | .cast e target _, h => by
    rw [Standalone] at h
    obtain ⟨r, hr, hcode⟩ := emit_computes s env henv e h
    refine ⟨.cast r target, by rw [lower, hr]; rfl, ?_⟩
    rw [emit]
    split
    · rename_i text htext
      by_cases htarget : target.staticType = .string
      · rw [if_pos htarget] at htext
        have hpush : (Emit.push (.pushStr text)).Computes s.limited (return .text text) :=
          Emit.push_computes fun _ _ => rfl
        exact hpush.congr fun t _ => (resolve_cast_literalText hr htarget htext t).symm
      · rw [if_neg htarget] at htext
        cases htext
    · rw [Ref.resolve]
      exact hcode.unary fun _ _ _ => rfl
  | .concat l r _, h => by
    rw [Standalone] at h
    obtain ⟨hbuilt, hl, hr⟩ := h
    obtain ⟨l', hl', hleft⟩ := emit_computes s env henv l hl
    obtain ⟨r', hr', hright⟩ := emit_computes s env henv r hr
    refine ⟨.concat l' r', by rw [lower, hl', hr']; rfl, ?_⟩
    rw [emit, Ref.resolve]
    refine (Emit.Computes.binary (l'.keeps_surroundings false) hleft hright fun _ _ _ _ => rfl).congr fun t _ => ?_
    exact Eval.run_lift_later fun v _ hv => resolve_text hl' hbuilt.operandsTyped.1 hv
  | .logic op l r _, h => by
    rw [Standalone] at h
    obtain ⟨hbuilt, hl, hr⟩ := h
    obtain ⟨hltype, hrtype⟩ := hbuilt.operandsTyped
    obtain ⟨l', hl', hleft⟩ := emit_computes s env henv l hl
    obtain ⟨r', hr', hright⟩ := emit_computes s env henv r hr
    refine ⟨.logic op l' r', by rw [lower, hl', hr']; rfl, ?_⟩
    have hkeeps := l'.keeps_surroundings false
    have hlbool : ∀ u v t, (l'.resolve false).run u = (.ok v, t) → ∃ b, v = .bool b :=
      fun u v t hv => resolve_bool hl' hltype hv
    have hrbool : ∀ u v t, (r'.resolve false).run u = (.ok v, t) → ∃ b, v = .bool b :=
      fun u v t hv => resolve_bool hr' hrtype hv
    rw [emit]
    cases op with
    | and =>
      have hcode := Emit.Computes.keepOr .jumpIfFalse id hkeeps hleft hright fun _ _ _ _ => rfl
      have hstop : ∀ b, id b = false → BoolOp.and.shortCircuit? b = some b := by decide
      have hgo : ∀ b, id b = true → BoolOp.and.shortCircuit? b = none ∧ ∀ b', BoolOp.and.apply b b' = b' := by
        decide
      exact hcode.congr fun t _ => run_logic_early (hlbool t) hrbool hstop hgo
    | or =>
      have hcode := Emit.Computes.keepOr .jumpIfTrue Bool.not hkeeps hleft hright fun _ _ _ _ => rfl
      have hstop : ∀ b, Bool.not b = false → BoolOp.or.shortCircuit? b = some b := by decide
      have hgo : ∀ b, Bool.not b = true → BoolOp.or.shortCircuit? b = none ∧ ∀ b', BoolOp.or.apply b b' = b' := by
        decide
      exact hcode.congr fun t _ => run_logic_early (hlbool t) hrbool hstop hgo
    | _ =>
      refine (Emit.Computes.binary hkeeps hleft hright fun _ _ _ _ => rfl).congr fun t _ => ?_
      rw [Ref.resolve]
      exact Eval.run_lift_later fun v u hv => by
        obtain ⟨b, rfl⟩ := hlbool t v u hv
        exact ⟨b, rfl⟩
  | .arith op l r _, h => by
    rw [Standalone] at h
    obtain ⟨hfree, hbuilt, hl, hr⟩ := h
    obtain ⟨l', hl', hleft⟩ := emit_computes s env henv l hl
    obtain ⟨r', hr', hright⟩ := emit_computes s env henv r hr
    refine ⟨.arith op l' r', by rw [lower, hl', hr']; rfl, ?_⟩
    rw [emit, Ref.resolve]
    refine (Emit.Computes.binary (l'.keeps_surroundings false) hleft hright fun _ _ _ _ => rfl).congr fun t ht => ?_
    rw [Eval.run_bind_of_ok (Eval.run_ensureUnrestricted (ht.trans hfree))]
    exact Eval.run_lift_later fun v _ hv => resolve_decimal hl' hbuilt.operandsTyped.1 hv
  | .decision op l r _, h => by
    rw [Standalone] at h
    obtain ⟨-, hl, hr⟩ := h
    obtain ⟨l', hl', hleft⟩ := emit_computes s env henv l hl
    obtain ⟨r', hr', hright⟩ := emit_computes s env henv r hr
    refine ⟨.decision op l' r', by rw [lower, hl', hr']; rfl, ?_⟩
    rw [emit, Ref.resolve]
    exact .binary (l'.keeps_surroundings false) hleft hright fun _ _ _ _ => rfl
  | .not e _, h => by
    rw [Standalone] at h
    obtain ⟨e', he', hcode⟩ := emit_computes s env henv e h.2
    refine ⟨.not e', by rw [lower, he']; rfl, ?_⟩
    rw [emit, Ref.resolve]
    exact hcode.unary fun _ _ _ => rfl
  | .signed op e _, h => by
    rw [Standalone] at h
    obtain ⟨rfl, -, he⟩ := h
    obtain ⟨e', he', hcode⟩ := emit_computes s env henv e he
    refine ⟨.signed .minus e', by rw [lower, he']; rfl, ?_⟩
    rw [emit, Ref.resolve]
    exact hcode.unary fun _ _ _ => rfl
  | .conditional c l r _, h => by
    rw [Standalone] at h
    obtain ⟨-, hc, hl, hr⟩ := h
    obtain ⟨c', hc', htest⟩ := emit_computes s env henv c hc
    obtain ⟨l', hl', hyes⟩ := emit_computes s env henv l hl
    obtain ⟨r', hr', hno⟩ := emit_computes s env henv r hr
    refine ⟨.conditional c' l' r', by rw [lower, hc', hl', hr']; rfl, ?_⟩
    rw [emit, Ref.resolve]
    exact .branch (c'.keeps_surroundings false) htest hyes hno
  | .var .., h => by
    rw [Standalone] at h
    exact h.elim
  | .assign .., h => by
    rw [Standalone] at h
    exact h.elim
  | .elvis .., h => by
    rw [Standalone] at h
    exact h.elim

end Expr

namespace CodeUnit

/-- What is written into a new unit is its code. -/
theorem write_new {settings : Settings} {name : String} {e : Expr} {part : List Instr} {keys : KeyTable}
    (h : (e.emit ⟨settings, name⟩).Yields 0 .empty part keys) :
    ((new settings name).write e).1 = .ok () ∧ ((new settings name).write e).2.code = part.toArray := by
  have hrun : (e.emit (new settings name).env).run (new settings name).code.size (new settings name).keys = _ := h
  rw [write_eq_append]
  unfold append
  rw [hrun]
  exact ⟨rfl, Array.empty_append⟩

/-- **Written code agrees with evaluation.**  The code of a tree that needs no variables is written without a failure.
Its run from an empty stack has one ending, and that is how the evaluation of the tree ends: with the same value and
nothing else on the stack, or with the same fault, and with the same session. -/
theorem write_agrees_with_evaluate (e : Expr) (s : Session) (name : String) (h : e.Standalone s) :
    ((new s.settings name).write e).1 = .ok () ∧
      ∃ (result : Except Fault Value) (t : Session), e.evaluate s = (result.mapError .fault, t) ∧
        ∀ ending t', Runs ((new s.settings name).write e).2.code 0 [] s ending t' ↔
          ending = result.map (fun v => [v]) ∧ t' = t := by
  obtain ⟨r, hlower, hcode⟩ := e.emit_computes s ⟨s.settings, name⟩ rfl h
  obtain ⟨part, hpart, hcarries⟩ := hcode 0 .empty
  obtain ⟨hok, hwritten⟩ := write_new hpart
  refine ⟨hok, ((r.resolve false).run s).1, ((r.resolve false).run s).2, Expr.evaluate_of_lower_ok hlower, ?_⟩
  have hat : CodeAt part.toArray 0 part := by
    intro n i hi
    rwa [Nat.zero_add, List.getElem?_toArray]
  have hrun : Runs part.toArray 0 [] s (((r.resolve false).run s).1.map fun v => [v]) ((r.resolve false).run s).2 := by
    have hcarried := hcarries part.toArray hat [] s rfl
    unfold Carries at hcarried
    rcases hr : (r.resolve false).run s with ⟨result, t⟩
    simp only [hr] at hcarried ⊢
    cases result with
    | error f => exact hcarried
    | ok v =>
      refine hcarried _ _ ?_
      rw [Nat.zero_add, ← List.size_toArray]
      exact .stop [v] t
  intro ending t'
  rw [hwritten]
  constructor
  · exact hrun.unique
  · rintro ⟨rfl, rfl⟩
    exact hrun

/-- A text with a sum in it if two conditions hold, else a new struct. -/
def sumAsText : Expr :=
  .mkConditional
    (.mkLogic .and (.mkDecision .lt (.literal ⟨.integer 1, none⟩) (.literal ⟨.string "2", none⟩))
      (.literal ⟨.string "yes", none⟩))
    (.mkConcat (.mkArith .plus (.literal ⟨.integer 1, none⟩) (.literal ⟨.string "2", none⟩))
      (.literal ⟨.string "x", none⟩) true)
    .newStruct

set_option maxRecDepth 10000 in
theorem write_sumAsText_agrees :
    sumAsText.Standalone (.new {} false) ∧
      sumAsText.evaluate (.new {} false) = (.ok (.text "3x"), .new {} false) ∧
      Runs ((new {} "unit").write sumAsText).2.code 0 [] (.new {} false) (.ok [.text "3x"]) (.new {} false) := by
  have hone : (⟨1, 0⟩ : Decimal).Normal := Decimal.ofInt_normal 1
  have htwo : (⟨2, 0⟩ : Decimal).Normal := Decimal.ofInt_normal 2
  have hstandalone : sumAsText.Standalone (.new {} false) :=
    ⟨.conditional _ _ _ rfl, ⟨.logic _ _ _ rfl, ⟨.decision _ _ _ rfl, trivial, trivial⟩, trivial⟩,
      ⟨.concat _ _ false rfl, ⟨rfl, .arith _ _ _ rfl, hone, htwo⟩, trivial⟩, trivial⟩
  have hevaluate : sumAsText.evaluate (.new {} false) = (.ok (.text "3x"), .new {} false) := by rfl
  obtain ⟨-, result, t, hresult, hruns⟩ := write_agrees_with_evaluate sumAsText (.new {} false) "unit" hstandalone
  rw [hevaluate] at hresult
  cases result with
  | error f => cases hresult
  | ok v =>
    cases hresult
    exact ⟨hstandalone, hevaluate, (hruns _ _).2 ⟨rfl, rfl⟩⟩

end CodeUnit

end LooseExpr
