import LooseExpr.Coercion
/-!
# Comparisons and calculations

Two values are compared as truth values if one of them is a truth value and the other can be taken for one, else as
numbers if both can be, else as texts without regard to case.  Structs and arrays cannot be compared, only told apart.
-/
namespace LooseExpr

namespace Value

/-- The truth value that a value can be taken for in a comparison. -/
def looseBool? : Value → Option Bool
  | bool b => some b
  | number d => some (!d.isZero)
  | text s => Text.boolean? s
  | _ => none

/-- The order of two values of which one is a truth value and the other can be taken for one. -/
def boolOrder? (l r : Value) : Option Ordering :=
  match l, r with
  | bool a, r => r.looseBool?.map fun b => compare a b
  | l, bool b => l.looseBool?.map fun a => compare a b
  | _, _ => none

def numberOrder? (l r : Value) : Option Ordering :=
  match l.decimal?, r.decimal? with
  | some a, some b => some (a.cmp b)
  | _, _ => none

/-- The order of the texts of two values, in lower case. -/
def textOrder (l r : Value) : Except Fault Ordering := do
  let a ← l.toText
  let b ← r.toText
  return compare (Text.lower a) (Text.lower b)

def looseOrder (l r : Value) : Except Fault Ordering :=
  if l.isComplex || r.isComplex then .error (.incomparable l.type r.type)
  else match l, r with
    | instant a, instant b => .ok (compare a b)
    | l, r =>
      match boolOrder? l r with
      | some order => .ok order
      | none =>
        match numberOrder? l r with
        | some order => .ok order
        | none => textOrder l r

/-- The text of one value occurs in that of the other, without regard to case. -/
def containsText (l r : Value) : Except Fault Bool := do
  let whole ← l.toText
  let part ← r.toText
  return Text.occursIn (Text.lower part).toList (Text.lower whole).toList

end Value

def DecisionOp.decide (op : DecisionOp) (l r : Value) : Except Fault Bool :=
  match op with
  | lt => do return (← l.looseOrder r) == .lt
  | lte => do return (← l.looseOrder r) != .gt
  | gt => do return (← l.looseOrder r) == .gt
  | gte => do return (← l.looseOrder r) != .lt
  | eq => do return (← l.looseOrder r) == .eq
  | neq => do return (← l.looseOrder r) != .eq
  | eeq => .ok (l == r)
  | neeq => .ok (l != r)
  | ct => l.containsText r
  | nct => do return !(← l.containsText r)

def SignOp.apply (op : SignOp) (d : Decimal) : Decimal :=
  match op with
  | plus => d
  | minus => -d

def ArithmeticFault.ofQuotient : Option Decimal → Except ArithmeticFault Decimal
  | some d => .ok d
  | none => .error .divisionByZero

/-- Calculates; quotients that do not terminate have `precision` digits. -/
def NumberOp.compute (op : NumberOp) (l r : Decimal) (precision : Nat) : Except ArithmeticFault Decimal :=
  match op with
  | plus => .ok (l + r)
  | minus => .ok (l - r)
  | multiply => l.mul r
  | divide => ArithmeticFault.ofQuotient (l.div? r precision)
  | intDivide => ArithmeticFault.ofQuotient (l.intDiv? r)
  | modulus => ArithmeticFault.ofQuotient (l.rem? r)
  | exp =>
    match r.toInt64? with
    | some n => l.pow n.toInt precision
    | none => .error (.fractionalExponent r)

end LooseExpr
