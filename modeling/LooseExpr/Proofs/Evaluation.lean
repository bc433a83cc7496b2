import LooseExpr.Expr.Lower
import LooseExpr.Proofs.Eval
/-!
# Evaluation, node by node

An evaluation that has a value first lowered the tree and then resolved the reference.  A node over a single operand
(`Expr.cast`, `Expr.not`, `Expr.signed`) evaluates its operand and then works on the value; that nothing else comes
between is what `Outcome.andThen` says.
-/
namespace LooseExpr

theorem ok_of_bind {ε α β : Type} {x : Except ε α} {f : α → Except ε β} {b : β} (h : (x >>= f) = .ok b) :
    ∃ a, x = .ok a ∧ f a = .ok b := by
  cases x with
  | ok a => exact ⟨a, rfl, h⟩
  | error e => cases h

theorem ok_of_map {ε α β : Type} {x : Except ε α} {f : α → β} {b : β} (h : (do return f (← x)) = Except.ok b) :
    ∃ a, x = .ok a ∧ b = f a := by
  obtain ⟨a, hx, h⟩ := ok_of_bind h
  cases h
  exact ⟨a, hx, rfl⟩

theorem ok_of_map₂ {ε α β γ : Type} {x : Except ε α} {y : Except ε β} {f : α → β → γ} {c : γ}
    (h : (do return f (← x) (← y)) = Except.ok c) : ∃ a b, x = .ok a ∧ y = .ok b ∧ c = f a b := by
  obtain ⟨a, hx, h⟩ := ok_of_bind h
  obtain ⟨b, hy, h⟩ := ok_of_map h
  exact ⟨a, b, hx, hy, h⟩

/-- What an evaluation ends in: a value or a failure, and the session. -/
abbrev Outcome := Except Failure Value × Session

/-- Goes on with the value, if there is one. -/
def Outcome.andThen (o : Outcome) (f : Value → Except Fault Value) : Outcome :=
  match o with
  | (.ok v, s) => ((f v).mapError .fault, s)
  | (.error failure, s) => (.error failure, s)

namespace Expr

theorem evaluate_of_lower_ok {e : Expr} {s : Session} {r : Ref} (h : e.lower s.settings = .ok r) :
    e.evaluate s = (((r.resolve false).run s).1.mapError .fault, ((r.resolve false).run s).2) := by
  unfold evaluate
  rw [h]
  rfl

theorem evaluate_of_lower_error {e : Expr} {s : Session} {failure : Failure} (h : e.lower s.settings = .error failure) :
    e.evaluate s = (.error failure, s) := by
  unfold evaluate
  rw [h]

/-- **An evaluation with a value, unpacked.** -/
theorem ok_of_evaluate {e : Expr} {s s' : Session} {v : Value} (h : e.evaluate s = (.ok v, s')) :
    ∃ r, e.lower s.settings = .ok r ∧ (r.resolve false).run s = (.ok v, s') := by
  cases hl : e.lower s.settings with
  | error failure =>
    rw [evaluate_of_lower_error hl] at h
    cases h
  | ok r =>
    rw [evaluate_of_lower_ok hl] at h
    refine ⟨r, rfl, ?_⟩
    rcases hr : (r.resolve false).run s with ⟨result, t⟩
    rw [hr] at h
    cases result with
    | ok w => cases h; rfl
    | error fault => cases h

/-- **The node over one operand**: its reference resolves the operand and goes on with the value. -/
theorem evaluate_node {node e : Expr} {s : Session} (ref : Ref → Ref) (f : Value → Except Fault Value)
    (hlower : node.lower s.settings = (do return ref (← e.lower s.settings)))
    (hresolve : ∀ r, (ref r).resolve false = (do Eval.lift (f (← r.resolve false)))) :
    node.evaluate s = Outcome.andThen (e.evaluate s) f := by
  cases hl : e.lower s.settings with
  | error failure =>
    rw [hl] at hlower
    rw [evaluate_of_lower_error hl, evaluate_of_lower_error hlower]
    rfl
  | ok r =>
    rw [hl] at hlower
    rw [evaluate_of_lower_ok hl, evaluate_of_lower_ok (r := ref r) hlower, hresolve, Eval.run_bind]
    rcases (r.resolve false).run s with ⟨result, t⟩
    cases result with
    | ok v => rfl
    | error fault => rfl

theorem evaluate_cast (e : Expr) (target : CastTarget) (span : Option Span) (s : Session) :
    (cast e target span).evaluate s = Outcome.andThen (e.evaluate s) target.apply := by
  refine evaluate_node (fun r => .cast r target) target.apply ?_ (fun r => ?_)
  · rw [lower]
  · rw [Ref.resolve]

theorem evaluate_not (e : Expr) (span : Option Span) (s : Session) :
    (not e span).evaluate s = Outcome.andThen (e.evaluate s) fun v => do return .bool (!(← v.toBoolean)) := by
  refine evaluate_node Ref.not _ ?_ (fun r => ?_)
  · rw [lower]
  · rw [Ref.resolve]
    congr 1
    funext v
    cases v.toBoolean <;> rfl

theorem evaluate_signed (op : SignOp) (e : Expr) (span : Option Span) (s : Session) :
    (signed op e span).evaluate s =
      Outcome.andThen (e.evaluate s) fun v => do return .number (op.apply (← v.toDecimal)) := by
  refine evaluate_node (Ref.signed op) _ ?_ (fun r => ?_)
  · rw [lower]
  · rw [Ref.resolve]
    congr 1
    funext v
    cases v.toDecimal <;> rfl

end Expr

end LooseExpr
