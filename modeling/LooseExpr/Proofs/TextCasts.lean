import LooseExpr.Proofs.Folding
/-!
# Casts to text

A cast to text is written with the type itself or with its name, in any case of the letters, and casts of both kinds may
be nested.  `Expr.stripTextCasts` takes all of them off, down to the first node that is none.  That loses nothing where a
text is wanted in the end: a text has itself for its text, so the innermost of the casts does all the work, and the ones
around it hand on its value or its fault.
-/
namespace LooseExpr

/-- **The names of the type of texts.** -/
theorem isTextTypeName_iff_eqIgnoringAsciiCase (name : String) : isTextTypeName name = true ↔
    Text.eqIgnoringAsciiCase name "String" = true ∨ Text.eqIgnoringAsciiCase name "java.lang.String" = true := by
  have hshort : Text.asciiLower "String" = "string" := by decide
  have hlong : Text.asciiLower "java.lang.String" = "java.lang.string" := by decide
  rw [isTextTypeName_iff, ← Text.asciiLower_eq_iff, ← Text.asciiLower_eq_iff, hshort, hlong]

namespace CastTarget

theorem staticType_eq_string_iff {target : CastTarget} : target.staticType = .string ↔
    target = .string ∨ ∃ name, target = .other name ∧ isTextTypeName name = true := by
  cases target <;> simp [staticType]

theorem apply_of_staticType_string {target : CastTarget} (h : target.staticType = .string) (v : Value) :
    target.apply v = CastTarget.string.apply v := by
  rcases staticType_eq_string_iff.1 h with rfl | ⟨name, rfl, hname⟩
  · rfl
  · exact Expr.apply_other .string (by rw [(NamedType.ofName_eq_string_iff name).2 hname]; rfl) v

/-- **A text is its own text**, and a fault of the first cast is the fault of both. -/
theorem apply_string_bind (v : Value) : (string.apply v >>= string.apply) = string.apply v := by
  unfold apply
  cases v.toText <;> rfl

end CastTarget

namespace Expr

theorem stripTextCasts_cast {target : CastTarget} (h : target.staticType = .string) (e : Expr) (span : Option Span) :
    (cast e target span).stripTextCasts = e.stripTextCasts := by
  rw [stripTextCasts, if_pos h]

theorem staticType_ne_string_of_stripTextCasts {x e : Expr} {target : CastTarget} {span : Option Span}
    (h : x.stripTextCasts = cast e target span) : target.staticType ≠ .string := by
  fun_induction stripTextCasts x with
  | case1 e' target' span' htext ih => exact ih h
  | case2 e' target' span' htext =>
    cases h
    exact htext
  | case3 x hcast => exact (hcast e target span h).elim

theorem stripTextCasts_stripTextCasts (x : Expr) : x.stripTextCasts.stripTextCasts = x.stripTextCasts := by
  cases hstripped : x.stripTextCasts with
  | cast e target span => rw [stripTextCasts, if_neg (staticType_ne_string_of_stripTextCasts hstripped)]
  | _ => rfl

theorem stripTextCasts_asText (x : Expr) : x.asText.stripTextCasts = x.stripTextCasts := by
  unfold asText
  split
  · rfl
  · exact stripTextCasts_cast rfl x x.span

-- The induction is along the casts that are taken off: each of them leaves the outer one nothing to do.
theorem evaluate_cast_stripTextCasts (x : Expr) (span span' : Option Span) (s : Session) :
    (cast x.stripTextCasts .string span).evaluate s = (cast x .string span').evaluate s := by
  fun_induction stripTextCasts x with
  | case1 e target span'' htext ih =>
    have hboth : (fun v => target.apply v >>= CastTarget.string.apply) = CastTarget.string.apply := by
      funext v
      rw [CastTarget.apply_of_staticType_string htext, CastTarget.apply_string_bind]
    rw [ih, evaluate_cast, evaluate_cast, evaluate_cast, Outcome.andThen_andThen, hboth]
  | case2 e target span'' htext => rw [evaluate_cast _ .string span, evaluate_cast _ .string span']
  | case3 x hcast => rw [evaluate_cast _ .string span, evaluate_cast _ .string span']

/-- **Casts to text can be taken off.**  What is left is no cast to text, by the type or by one of its names, so there is
nothing to take off again; casts that are put around an expression come off as well.  And under a cast to text the rest
has the same value or failure and leaves the same session. -/
theorem text_casts_come_off (x : Expr) :
    (∀ e target span, x.stripTextCasts = cast e target span → target ≠ .string ∧
      ∀ name, target = .other name → Text.eqIgnoringAsciiCase name "String" = false ∧
        Text.eqIgnoringAsciiCase name "java.lang.String" = false) ∧
    x.stripTextCasts.stripTextCasts = x.stripTextCasts ∧
    x.asText.asText.stripTextCasts = x.asText.stripTextCasts ∧ x.asText.stripTextCasts = x.stripTextCasts ∧
    ∀ (s : Session) (span span' : Option Span),
      (cast x.stripTextCasts .string span).evaluate s = (cast x .string span').evaluate s := by
  refine ⟨fun e target span hstripped => ?_, stripTextCasts_stripTextCasts x, stripTextCasts_asText x.asText,
    stripTextCasts_asText x, fun s span span' => evaluate_cast_stripTextCasts x span span' s⟩
  have htext := staticType_ne_string_of_stripTextCasts hstripped
  rw [ne_eq, CastTarget.staticType_eq_string_iff, not_or, not_exists] at htext
  refine ⟨htext.1, fun name hname => ?_⟩
  have hother : ¬ isTextTypeName name = true := fun hstring => htext.2 name ⟨hname, hstring⟩
  rw [isTextTypeName_iff_eqIgnoringAsciiCase, not_or] at hother
  exact ⟨Bool.eq_false_iff.2 hother.1, Bool.eq_false_iff.2 hother.2⟩

end Expr

end LooseExpr
