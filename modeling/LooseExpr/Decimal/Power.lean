import LooseExpr.Decimal.Numeral
import LooseExpr.Decimal.Quotient
/-!
# Products and powers

Products are exact as long as their scale can be held.  Integral powers are exact too, within limits that are checked
before any work is done; a negative exponent divides one by the power.
-/
namespace LooseExpr

inductive ArithmeticFault where
  | divisionByZero
  | productScale (left right : Nat)
  | exponentRange (exponent : Int)
  | powerScale (base : Decimal) (exponent : Int)
  | powerDigits (exponent : Int)
  | fractionalExponent (exponent : Decimal)
deriving DecidableEq

namespace Decimal

def maxPower : Nat := 100000

/-- The most digits that the mantissa of a power may have, by the estimate made beforehand. -/
def maxPowerDigits : Nat := 1000000

def mul (a b : Decimal) : Except ArithmeticFault Decimal :=
  if a.scale + b.scale ≤ maxScale then .ok (normalize (a.mantissa * b.mantissa) (a.scale + b.scale))
  else .error (.productScale a.scale b.scale)

/-- The power with exponent `n`; a negative exponent divides, and rounds as division does. -/
def pow (a : Decimal) (n : Int) (precision : Nat) : Except ArithmeticFault Decimal :=
  if maxPower < n.natAbs then .error (.exponentRange n)
  else if maxScale < a.scale * n.natAbs then .error (.powerScale a n)
  else if maxPowerDigits < digitCount a.mantissa.natAbs * n.natAbs then .error (.powerDigits n)
  else
    let powered := normalize (Int.pow a.mantissa n.natAbs) (a.scale * n.natAbs)
    if 0 ≤ n then .ok powered
    else match div? one powered precision with
      | some d => .ok d
      | none => .error .divisionByZero

end Decimal

namespace ArithmeticFault

def detail : ArithmeticFault → String
  | divisionByZero => "division by zero"
  | productScale left right => "product of scales " ++ toString left ++ " and " ++ toString right
      ++ " is too precise to represent"
  | exponentRange n => "exponent " ++ toString n ++ " exceeds the supported range"
  | powerScale base n => base.toText ++ " ^ " ++ toString n ++ " is too precise to represent"
  | powerDigits n => "power with exponent " ++ toString n ++ " would exceed " ++ toString Decimal.maxPowerDigits
      ++ " digits"
  | fractionalExponent r => "exponent [" ++ r.toText ++ "] must be an integer for exact exponentiation"

end ArithmeticFault

end LooseExpr
