import LooseExpr.Decimal.Basic
/-!
# Decimals of binary64 numbers

A finite binary64 number stands for the decimal with the fewest digits that reads back as it, and among those for the
one nearest to it.  Of two equally near the greater in size is taken.  All of it is whole-number arithmetic on the
number `mantissa * 2 ^ exponent` that the bits denote.
-/
namespace LooseExpr

/-- A finite binary64 number `± mantissa * 2 ^ exponent`. -/
structure Binary64 where
  negative : Bool
  mantissa : Nat
  exponent : Int
deriving DecidableEq, Inhabited

namespace Binary64

/-- The leading bit of a mantissa of 53 bits, which is not stored: `2 ^ 52`. -/
def hiddenBit : Nat := 4503599627370496

def signBit : Nat := 9223372036854775808

/-- Reads the 64 bits of a number; none for an infinity and for what is not a number. -/
def ofBits? (bits : UInt64) : Option Binary64 :=
  let n := bits.toNat
  let biased : Nat := n / hiddenBit % 2048
  let fraction : Nat := n % hiddenBit
  let negative := signBit ≤ n
  if biased = 2047 then none
  else if biased = 0 then some ⟨negative, fraction, -1074⟩
  else some ⟨negative, hiddenBit + fraction, (biased : Int) - 1075⟩

def nonFiniteText (bits : UInt64) : String :=
  let n := bits.toNat
  if n % hiddenBit ≠ 0 then "NaN" else if signBit ≤ n then "-inf" else "inf"

/-- The next number below is half as far as the next one above. -/
def closerBelow (x : Binary64) : Bool := x.mantissa = hiddenBit && -1074 < x.exponent

/-- The numbers that read back as `x` lie between `low / unit` and `high / unit`, about `mid / unit`. -/
structure Interval where
  low : Nat
  mid : Nat
  high : Nat
  unit : Nat
  closed : Bool
deriving DecidableEq, Inhabited

/-- The interval of a number; its ends belong to it when the mantissa is even. -/
def interval (x : Binary64) : Interval :=
  let up := Nat.pow 2 x.exponent.toNat
  let unit := 4 * Nat.pow 2 (-x.exponent).toNat
  let mid := 4 * x.mantissa * up
  { low := mid - (if x.closerBelow then up else 2 * up), mid, high := mid + 2 * up, unit,
    closed := x.mantissa % 2 = 0 }

def Interval.has (i : Interval) (digits : Nat) (exponent : Int) : Bool :=
  let value := digits * Decimal.tenPow exponent.toNat * i.unit
  let one := Decimal.tenPow (-exponent).toNat
  if i.closed then i.low * one ≤ value && value ≤ i.high * one else i.low * one < value && value < i.high * one

/-- The best multiple of `10 ^ exponent` in the interval, if there is one: the nearest, of two the greater. -/
def Interval.nearest? (i : Interval) (exponent : Int) : Option Nat :=
  let one := Decimal.tenPow exponent.toNat * i.unit
  let target := i.mid * Decimal.tenPow (-exponent).toNat
  let below := target / one
  match i.has below exponent, i.has (below + 1) exponent with
  | true, true => some (if 2 * (target % one) < one then below else below + 1)
  | true, false => some below
  | false, true => some (below + 1)
  | false, false => none

/-- Tries multiples of ever smaller powers of ten, from `10 ^ exponent` down. -/
def Interval.shortest (i : Interval) : Nat → Int → Nat × Int
  | 0, exponent => (0, exponent)
  | tries + 1, exponent =>
    match i.nearest? exponent with
    | some digits => (digits, exponent)
    | none => i.shortest tries (exponent - 1)

/-- The shortest decimal that reads back as `x`. -/
def toDecimal (x : Binary64) : Decimal :=
  if x.mantissa = 0 then .zero
  else
    let (digits, exponent) := x.interval.shortest 700 310
    let mantissa : Int := if x.negative then -digits else digits
    if 0 ≤ exponent then .normalize (mantissa * Decimal.tenPow exponent.toNat) 0
    else .normalize mantissa exponent.natAbs

end Binary64

def Decimal.ofBinary64? (bits : UInt64) : Option Decimal := (Binary64.ofBits? bits).map Binary64.toDecimal

end LooseExpr
