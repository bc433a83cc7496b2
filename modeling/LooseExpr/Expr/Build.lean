import LooseExpr.Comparison
import LooseExpr.Decimal.Binary64
import LooseExpr.Expr.Casting
/-!
# Building expressions

The constructors that a reader of source texts uses.  They put the casts around operands and work out the place of a
node from those of its operands.  The only things done at once are joining literal texts and negating literals.
-/
namespace LooseExpr

def Chain.ofNames (scope : Scope) (names : List Expr) (span : Option Span) : Chain :=
  ⟨scope, names.map Expr.asText, span⟩

def Chain.toExpr (c : Chain) : Expr := .var c.scope c.members c.span

namespace Expr

def number (text : String) (span : Option Span) : Except Failure Expr :=
  match Decimal.ofText? text with
  | some d => .ok (literal ⟨.number d, span⟩)
  | none => .error (.rejected (.notNumber text) span)

def binary64 (bits : UInt64) (span : Option Span) : Except Failure Expr :=
  match Decimal.ofBinary64? bits with
  | some d => .ok (literal ⟨.number d, span⟩)
  | none => .error (.rejected (.notNumber (Binary64.nonFiniteText bits)) span)

def spanOf (l r : Expr) : Option Span := Span.merge l.span r.span

/-- Joins two texts; literals are joined at once if `atOnce`. -/
def mkConcat (l r : Expr) (atOnce : Bool) : Expr :=
  match atOnce, l.literalText?, r.literalText? with
  | true, some a, some b => literal ⟨.string (a ++ b), spanOf l r⟩
  | _, _, _ => concat l.asText r.asText (spanOf l r)

def mkLogic (op : BoolOp) (l r : Expr) : Expr := logic op l.asBoolean r.asBoolean (spanOf l r)

def mkArith (op : NumberOp) (l r : Expr) : Expr := arith op l.asNumber r.asNumber (spanOf l r)

def mkDecision (op : DecisionOp) (l r : Expr) : Expr := decision op l r (spanOf l r)

def mkNot (e : Expr) (span : Option Span) : Expr :=
  let span := span.or e.span
  match e.literal?.bind fun lit => lit.value.boolean? with
  | some b => literal ⟨.boolean (!b), span⟩
  | none => not e.asBoolean span

def mkSigned (op : SignOp) (e : Expr) (span : Option Span) : Expr :=
  let span := span.or e.span
  match e.literal?.bind fun lit => lit.value.decimal? with
  | some d => literal ⟨.number (op.apply d), span⟩
  | none => signed op e.asNumber span

/-- A compound assignment: of a number with an operator, of a text without. -/
def mkAssign (target : Chain) (op : Option NumberOp) (value : Expr) (kind : AssignKind) (span : Option Span) : Expr :=
  assign target.scope target.members target.span op (if op.isSome then value.asNumber else value.asText) kind
    (span.or target.span)

def mkConditional (c l r : Expr) : Expr := conditional c.asBoolean l r (Span.merge c.span r.span)

def mkElvis (l : Chain) (r : Expr) : Expr := elvis l.scope l.members l.span r (Span.merge l.span r.span)

end Expr

end LooseExpr
