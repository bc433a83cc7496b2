/-!
# Exact decimals

A decimal is a whole number, the mantissa, with its point moved `scale` places to the left.  Sums, differences and
products are exact.  `Decimal.normalize` is the constructor to use: it drops the zeros at the end of the fraction and
writes zero in one way, so that two normal decimals denote the same number only if they are the same structure
(`Decimal.Normal`).
-/
namespace LooseExpr

/-- The number `mantissa / 10 ^ scale`. -/
structure Decimal where
  mantissa : Int
  scale : Nat
deriving DecidableEq, Inhabited

namespace Decimal

def tenPow (n : Nat) : Nat := Nat.pow 10 n

def maxScale : Nat := 4294967295

/-- A decimal written with as few fraction digits as its value needs. -/
def Normal (d : Decimal) : Prop :=
  (d.mantissa = 0 → d.scale = 0) ∧ (0 < d.scale → ¬ (10 : Int) ∣ d.mantissa)

def strip (mantissa : Int) : Nat → Decimal
  | 0 => ⟨mantissa, 0⟩
  | scale + 1 => if mantissa % 10 = 0 then strip (mantissa / 10) scale else ⟨mantissa, scale + 1⟩

/-- The normal decimal of value `mantissa / 10 ^ scale`. -/
def normalize (mantissa : Int) (scale : Nat) : Decimal :=
  if mantissa = 0 then ⟨0, 0⟩ else strip mantissa scale

def ofInt (n : Int) : Decimal := ⟨n, 0⟩

def zero : Decimal := ofInt 0

def one : Decimal := ofInt 1

/-! ## Reading a decimal -/

def isZero (d : Decimal) : Bool := d.mantissa == 0

def isNegative (d : Decimal) : Bool := d.mantissa < 0

/-- A normal decimal denotes a whole number exactly when it has no fraction digits. -/
def isInteger (d : Decimal) : Bool := d.scale == 0

/-- The whole part, truncated toward zero. -/
def trunc (d : Decimal) : Int := d.mantissa.tdiv (tenPow d.scale)

def toInt64? (d : Decimal) : Option Int64 :=
  if d.isInteger && -9223372036854775808 ≤ d.mantissa && d.mantissa < 9223372036854775808 then
    some (.ofInt d.mantissa)
  else none

def int32? (n : Int) : Option Int32 :=
  if -2147483648 ≤ n ∧ n < 2147483648 then some (.ofInt n) else none

def toInt32? (d : Decimal) : Option Int32 :=
  if d.isInteger then int32? d.mantissa else none

def truncInt32? (d : Decimal) : Option Int32 := int32? d.trunc

/-! ## Sums, differences and order -/

/-- The mantissa that `d` has at the scale `scale`, which is at least its own. -/
def rescale (d : Decimal) (scale : Nat) : Int := d.mantissa * tenPow (scale - d.scale)

def abs (d : Decimal) : Decimal := ⟨d.mantissa.natAbs, d.scale⟩

def neg (d : Decimal) : Decimal := ⟨-d.mantissa, d.scale⟩

def add (a b : Decimal) : Decimal :=
  let scale := max a.scale b.scale
  normalize (a.rescale scale + b.rescale scale) scale

def sub (a b : Decimal) : Decimal :=
  let scale := max a.scale b.scale
  normalize (a.rescale scale - b.rescale scale) scale

instance : Neg Decimal := ⟨neg⟩

instance : Add Decimal := ⟨add⟩

instance : Sub Decimal := ⟨sub⟩

/-- Decimals are compared by value, at their common scale. -/
def cmp (a b : Decimal) : Ordering :=
  let scale := max a.scale b.scale
  compare (a.rescale scale) (b.rescale scale)

end Decimal

end LooseExpr
