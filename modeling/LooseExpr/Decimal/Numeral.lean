import LooseExpr.Decimal.Basic
/-!
# The text of a decimal

`Decimal.toText` writes plain digits: a sign only for negative numbers, no exponent, no zero at the end of a fraction.
`Decimal.ofText?` reads more than that: an optional sign, digits on either side of an optional point, and an optional
exponent of at most `maxExponent` in size.  At least one digit stands next to the point; nothing may stand around the
number.
-/
namespace LooseExpr

structure Numeral where
  negative : Bool
  whole : List Char
  fraction : List Char
  exponent : Int
deriving DecidableEq, Inhabited

namespace Numeral

def maxExponent : Nat := 100000

def sign : List Char → Bool × List Char
  | '-' :: cs => (true, cs)
  | '+' :: cs => (false, cs)
  | cs => (false, cs)

def digitsValue (cs : List Char) : Nat := Nat.ofDigitChars 10 cs 0

/-- An optional point with the digits after it, and the text after them. -/
def fractionPart : List Char → List Char × List Char
  | '.' :: cs => (cs.takeWhile Char.isDigit, cs.dropWhile Char.isDigit)
  | cs => ([], cs)

/-- The exponent that makes up the whole of a text: nothing, or a mark with a signed number in range. -/
def exponentPart? : List Char → Option Int
  | [] => some 0
  | mark :: cs =>
    let (negative, digits) := sign cs
    if (mark = 'e' ∨ mark = 'E') ∧ digits ≠ [] ∧ digits.all Char.isDigit ∧ digitsValue digits ≤ maxExponent then
      some (if negative then -(digitsValue digits : Int) else digitsValue digits)
    else none

def scan? (cs : List Char) : Option Numeral :=
  let (negative, cs) := sign cs
  let whole := cs.takeWhile Char.isDigit
  let (fraction, cs) := fractionPart (cs.dropWhile Char.isDigit)
  match exponentPart? cs with
  | some exponent => if whole = [] ∧ fraction = [] then none else some ⟨negative, whole, fraction, exponent⟩
  | none => none

def toDecimal (n : Numeral) : Decimal :=
  let magnitude : Int := digitsValue (n.whole ++ n.fraction)
  let mantissa := if n.negative then -magnitude else magnitude
  let scale := n.fraction.length - n.exponent
  if 0 ≤ scale then .normalize mantissa scale.toNat else .normalize (mantissa * Decimal.tenPow scale.natAbs) 0

end Numeral

namespace Decimal

/-- Reads a decimal; the whole text has to be one number. -/
def ofText? (text : String) : Option Decimal := (Numeral.scan? text.toList).map Numeral.toDecimal

/-- Sets a point before the last `scale` digits, filling up with zeros on the left. -/
def withPoint (digits : List Char) (scale : Nat) : List Char :=
  if scale = 0 then digits
  else if scale < digits.length then
    digits.take (digits.length - scale) ++ '.' :: digits.drop (digits.length - scale)
  else '0' :: '.' :: (List.replicate (scale - digits.length) '0' ++ digits)

def toChars (d : Decimal) : List Char :=
  let digits := withPoint (Nat.toDigits 10 d.mantissa.natAbs) d.scale
  if d.mantissa < 0 then '-' :: digits else digits

def toText (d : Decimal) : String := String.ofList d.toChars

end Decimal

structure NotNumeral where
  input : String
deriving DecidableEq

def NotNumeral.message (e : NotNumeral) : String := "invalid decimal literal [" ++ e.input ++ "]"

def Decimal.parse (text : String) : Except NotNumeral Decimal :=
  match ofText? text with
  | some d => .ok d
  | none => .error ⟨text⟩

end LooseExpr
