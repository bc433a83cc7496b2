import LooseExpr.Comparison
import LooseExpr.Ref
import LooseExpr.Session
/-!
# Resolving references

`Ref.resolve` gives the value of a reference in a session.  It comes in two manners: a missing variable is a fault, or,
in the lenient manner, null.  Only a variable that stands by itself is read leniently; its member names, and everything
inside other references, are not.
-/
namespace LooseExpr

namespace Eval

def compute (op : NumberOp) (l r : Decimal) : Eval Decimal := do
  lift ((op.compute l r (← get).settings.divisionPrecision.toNat).mapError .arithmetic)

/-- The old and the new value of a compound assignment. -/
def combine (op : Option NumberOp) (current operand : Value) : Eval (Value × Value) := do
  match op with
  | some op =>
    let before ← lift current.toDecimal
    let after ← compute op before (← lift operand.toDecimal)
    return (.number before, .number after)
  | none =>
    let before ← lift current.toText
    return (.text before, .text (before ++ (← lift operand.toText)))

end Eval

def AssignKind.choose (kind : AssignKind) (before after : Value) : Value :=
  match kind with
  | pre => after
  | post => before

mutual

/-- The value of a reference; leniently, a missing variable is null. -/
def Ref.resolve : Ref → (lenient : Bool) → Eval Value
  | .literal v, _ => return v
  | .newStruct, _ => return .struct (← Eval.newStruct)
  | .newArray, _ => return .array (← Eval.newArray)
  | .var scope members, lenient => do
    let keys ← Ref.keys members
    if lenient then return (← Eval.readPath scope keys).getD .null
    else Eval.readDefined scope keys
  | .varOrNull scope members, _ => do
    let keys ← Ref.keys members
    return (← Eval.readPath scope keys).getD .null
  | .concat l r, _ => do
    let left ← Eval.lift (← l.resolve false).toText
    let right ← Eval.lift (← r.resolve false).toText
    return .text (left ++ right)
  | .not e, _ => do
    let b ← Eval.lift (← e.resolve false).toBoolean
    return .bool (!b)
  | .signed op e, _ => do
    let d ← Eval.lift (← e.resolve false).toDecimal
    return .number (op.apply d)
  | .decision op l r, _ => do
    let left ← l.resolve false
    let right ← r.resolve false
    return .bool (← Eval.lift (op.decide left right))
  | .logic op l r, _ => do
    let left ← Eval.lift (← l.resolve false).toBoolean
    match op.shortCircuit? left with
    | some b => return .bool b
    | none =>
      let right ← Eval.lift (← r.resolve false).toBoolean
      return .bool (op.apply left right)
  | .arith op l r, _ => do
    Eval.ensureUnrestricted
    let left ← Eval.lift (← l.resolve false).toDecimal
    let right ← Eval.lift (← r.resolve false).toDecimal
    return .text (← Eval.compute op left right).toText
  | .conditional c l r, _ => do
    if ← Eval.lift (← c.resolve false).toBoolean then l.resolve false else r.resolve false
  | .elvis l r, _ => do
    let left ← l.resolve true
    if left.isNull then r.resolve false else return left
  | .assign scope members op value kind, _ => do
    if op.isSome then Eval.ensureUnrestricted
    let keys ← Ref.keys members
    let current ← Eval.readDefined scope keys
    let operand ← value.resolve false
    let (before, after) ← Eval.combine op current operand
    Eval.writePath scope keys after
    return kind.choose before after
  | .cast e target, _ => do
    Eval.lift (target.apply (← e.resolve false))
  | .marked text e, lenient => do
    Eval.mark (if lenient then text ++ "?" else text)
    e.resolve lenient
  | .failing f, _ => throw f

def Ref.keys : List Ref → Eval (List Key)
  | [] => return []
  | member :: members => do
    let key ← Eval.lift (← member.resolve false).toKey
    return key :: (← Ref.keys members)

end

def Ref.value (r : Ref) : Eval Value := r.resolve false

def Ref.valueOrNull (r : Ref) : Eval Value := r.resolve true

def Ref.assignTo (scope : Scope) (members : List Ref) (value : Value) : Eval Unit := do
  Eval.writePath scope (← Ref.keys members) value

end LooseExpr
