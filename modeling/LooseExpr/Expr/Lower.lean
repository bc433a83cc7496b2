import LooseExpr.Expr.Basic
import LooseExpr.Ref.Resolve
/-!
# Evaluating expressions

A tree is lowered to a reference, which is then resolved in a session.  Lowering fails only at an assignment to a scope
itself, wherever in the tree it stands.
-/
namespace LooseExpr

/-- The reference of a constant; the word for null is a variable unless the settings know null. -/
def Constant.lower (settings : Settings) : Constant → Ref
  | boolean b => .literal (.bool b)
  | string s => .literal (.text s)
  | number d => .literal (.number d)
  | integer n => .literal (.ofInt n.toInt)
  | long n => .literal (.ofInt n.toInt)
  | null => .literal .null
  | nullWord =>
    if settings.nullSupport then .literal .null else .varOrNull .undefined [.literal (.text "null")]
  | empty => .literal (.text "")

mutual

def Expr.lower (settings : Settings) : Expr → Except Failure Ref
  | .literal lit => return lit.value.lower settings
  | .newStruct => return .newStruct
  | .newArray => return .newArray
  | .var scope members _ => return .var scope (← Expr.lowerAll settings members)
  | .cast e target _ => return .cast (← e.lower settings) target
  | .concat l r _ => return .concat (← l.lower settings) (← r.lower settings)
  | .logic op l r _ => return .logic op (← l.lower settings) (← r.lower settings)
  | .arith op l r _ => return .arith op (← l.lower settings) (← r.lower settings)
  | .decision op l r _ => return .decision op (← l.lower settings) (← r.lower settings)
  | .not e _ => return .not (← e.lower settings)
  | .signed op e _ => return .signed op (← e.lower settings)
  | .assign scope members _ op value kind span => do
    if members.isEmpty then throw (.rejected (.scopeTarget scope) span)
    return .assign scope (← Expr.lowerAll settings members) op (← value.lower settings) kind
  | .conditional c l r _ => return .conditional (← c.lower settings) (← l.lower settings) (← r.lower settings)
  | .elvis scope members _ r _ => return .elvis (.var scope (← Expr.lowerAll settings members)) (← r.lower settings)

def Expr.lowerAll (settings : Settings) : List Expr → Except Failure (List Ref)
  | [] => return []
  | e :: es => return (← e.lower settings) :: (← Expr.lowerAll settings es)

end

def Expr.evaluate (e : Expr) (s : Session) : Except Failure Value × Session :=
  match e.lower s.settings with
  | .error failure => (.error failure, s)
  | .ok r =>
    let (result, s) := r.value.run s
    (result.mapError .fault, s)

end LooseExpr
