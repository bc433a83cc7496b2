import LooseExpr.Decimal.Basic
/-!
# Quotients

A quotient that terminates is exact, whatever precision was asked for.  Any other one is rounded half-even to
`precision` significant digits.  The counters of factors, the number of places to shift by and the resulting scale are
kept in 32 bits (`word32`): a denominator with more factors than they can count, and a precision at the very top of their
range, lose them.
-/
namespace LooseExpr

namespace Decimal

/-- What 32 bits keep of a whole number. -/
def word32 (n : Int) : Nat := (n % 4294967296).toNat

/-- The digits of `n` when there are at most `2 ^ k` of them; zero has one digit. -/
def digitsBelow : Nat → Nat → Nat
  | 0, _ => 1
  | k + 1, n =>
    let p := tenPow (Nat.pow 2 k)
    if n < p then digitsBelow k n else Nat.pow 2 k + digitsBelow k (n / p)

def digitCount (n : Nat) : Nat := digitsBelow (Nat.log2 (Nat.log2 n + 1) + 1) n

/-- Divides the factors `p` out of a number that has fewer than `2 ^ k` of them: how many there are, and what is
left. -/
def divideOut (p : Nat) : Nat → Nat → Nat × Nat
  | 0, n => (0, n)
  | k + 1, n =>
    let q := Nat.pow p (Nat.pow 2 k)
    if n % q = 0 then
      let (count, rest) := divideOut p k (n / q)
      (Nat.pow 2 k + count, rest)
    else divideOut p k n

def countFactor (p n : Nat) : Nat × Nat := divideOut p (Nat.log2 (Nat.log2 n + 1) + 1) n

/-- The least `k` such that the positive number `den` divides `10 ^ k`, if there is one; factors are counted in 32
bits. -/
def terminatingScale? (den : Nat) : Option Nat :=
  let (twos, rest) := countFactor 2 den
  let (fives, rest) := countFactor 5 rest
  if rest = 1 then some (max (word32 twos) (word32 fives)) else none

/-- Rounds `kept + dropped / divisor`, and a little more if `sticky`, to a whole number, half to even. -/
def roundHalfEven (kept dropped divisor : Nat) (sticky : Bool) : Nat :=
  match compare dropped (divisor / 2) with
  | .gt => kept + 1
  | .lt => kept
  | .eq => if sticky || kept % 2 = 1 then kept + 1 else kept

/-- `num / den` to `precision` significant digits, without its sign: the digits and their scale. -/
def roundedDigits (num den precision : Nat) : Nat × Int :=
  -- brings up one digit more than asked for, or two, so that there is something to round by
  let shift : Int := precision - ((digitCount num : Int) - digitCount den) + 1
  let top := if 0 ≤ shift then num * tenPow (word32 shift) else num
  let bottom := if 0 ≤ shift then den else den * tenPow (word32 shift.natAbs)
  let q := top / bottom
  if precision < digitCount q then
    let excess := word32 (digitCount q - precision)
    let unit := tenPow excess
    (roundHalfEven (q / unit) (q % unit) unit (top % bottom ≠ 0), shift - excess)
  else (q, shift)

def roundQuotient (num : Int) (den precision : Nat) : Decimal :=
  let (digits, scale) := roundedDigits num.natAbs den precision
  let mantissa : Int := if num < 0 then -digits else digits
  if 0 ≤ scale then normalize mantissa (word32 scale)
  else normalize (mantissa * tenPow (word32 scale.natAbs)) 0

/-- The quotient `num / den` of whole numbers in lowest terms. -/
def ofRatio (num : Int) (den precision : Nat) : Decimal :=
  match terminatingScale? den with
  | some k => normalize (num * (tenPow k / den : Nat)) k
  | none => roundQuotient num den (max precision 1)

/-- The quotient: exact when it terminates, otherwise rounded; none when dividing by zero. -/
def div? (a b : Decimal) (precision : Nat) : Option Decimal :=
  if b.isZero then none
  else if a.isZero then some zero
  else
    let num := a.mantissa * tenPow b.scale
    let den := b.mantissa * tenPow a.scale
    let g : Int := Int.gcd num den
    let num := num.tdiv g
    let den := den.tdiv g
    some (ofRatio (if den < 0 then -num else num) den.natAbs precision)

/-- The remainder of truncated division, which has the sign of the dividend; none when dividing by zero. -/
def rem? (a b : Decimal) : Option Decimal :=
  if b.isZero then none
  else
    let scale := max a.scale b.scale
    some (normalize ((a.rescale scale).tmod (b.rescale scale)) scale)

def intDiv? (a b : Decimal) : Option Decimal :=
  if b.isZero then none
  else
    let scale := max a.scale b.scale
    some (ofInt ((a.rescale scale).tdiv (b.rescale scale)))

end Decimal

end LooseExpr
