import LooseExpr.Toml.Quoted
import LooseExpr.Toml.Table
/-!
# Numbers, truth values and dates of a TOML document

A scalar that is no string is a word of letters, digits and a few marks.  What the word stands for is decided on the
whole of it: a word that is none of the forms is refused.
-/
namespace LooseExpr.Toml

/-- Digits without the underscores in them; an underscore stands between two digits only. -/
def ungroup (isDigit : Char → Bool) : List Char → Option (List Char)
  | [] => none
  | [c] => if isDigit c then some [c] else none
  | c :: '_' :: cs => if isDigit c then (ungroup isDigit cs).map (c :: ·) else none
  | c :: cs => if isDigit c then (ungroup isDigit cs).map (c :: ·) else none

def unsign : List Char → Bool × List Char
  | '-' :: cs => (true, cs)
  | '+' :: cs => (false, cs)
  | cs => (false, cs)

/-- Decimal digits with no zero in front of others. -/
def wholeDigits (cs : List Char) : Option (List Char) := do
  let digits ← ungroup Char.isDigit cs
  if digits.head? = some '0' ∧ digits.length ≠ 1 then none else some digits

/-- An integer: decimal with a sign, or in base sixteen, eight or two without. -/
def integerOf : List Char → Option Int
  | '0' :: 'x' :: cs => (ungroup isHexDigit cs).map fun ds => valueIn 16 ds
  | '0' :: 'o' :: cs => (ungroup (fun c => '0' ≤ c && c ≤ '7') cs).map fun ds => valueIn 8 ds
  | '0' :: 'b' :: cs => (ungroup (fun c => c == '0' || c == '1') cs).map fun ds => valueIn 2 ds
  | cs => do
    let (negative, cs) := unsign cs
    let n := valueIn 10 (← wholeDigits cs)
    some (if negative then -(n : Int) else n)

/-- Integers that have a place: words of 128 bits, with or without a sign. -/
def integerFits (n : Int) : Bool := -(Nat.pow 2 127 : Int) ≤ n && n < (Nat.pow 2 128 : Int)

/-- `digits · 10 ^ exponent` is below all that binary floats of 64 bits round to infinity. -/
def floatFits (digits : Nat) (exponent : Int) : Bool :=
  let size : Int := (toString digits).length + exponent
  if digits = 0 ∨ size < 300 then true
  else if 320 < size then false
  else digits * Nat.pow 10 exponent.toNat < (Nat.pow 2 1024 - Nat.pow 2 970) * Nat.pow 10 (-exponent).toNat

/-- A float: a fraction, an exponent or both after whole digits; or one of the two words. -/
def isFloat (word : List Char) : Bool :=
  let cs := (unsign word).2
  let mantissa := cs.takeWhile fun c => c != 'e' && c != 'E'
  let exponent := cs.drop mantissa.length
  let whole := mantissa.takeWhile (· != '.')
  let fraction := mantissa.drop whole.length
  let fractionDigits := if fraction.isEmpty then some [] else ungroup Char.isDigit fraction.tail
  let (negative, exponentText) := unsign exponent.tail
  let exponentDigits := if exponent.isEmpty then some [] else ungroup Char.isDigit exponentText
  cs == ['i', 'n', 'f'] || cs == ['n', 'a', 'n'] ||
    match wholeDigits whole, fractionDigits, exponentDigits with
    | some ds, some fs, some es =>
      let shift : Int := valueIn 10 es
      !(fraction.isEmpty && exponent.isEmpty) &&
        floatFits (valueIn 10 (ds ++ fs)) ((if negative then -shift else shift) - fs.length)
    | _, _, _ => false

def twoDigits (a b : Char) : Option Nat := if a.isDigit ∧ b.isDigit then some (10 * digitOf a + digitOf b) else none

def daysInMonth (year month : Nat) : Nat :=
  if month = 2 then (if year % 4 = 0 ∧ (year % 100 ≠ 0 ∨ year % 400 = 0) then 29 else 28)
  else if month = 4 ∨ month = 6 ∨ month = 9 ∨ month = 11 then 30
  else 31

def afterDate : List Char → Option (List Char)
  | y₁ :: y₂ :: y₃ :: y₄ :: '-' :: m₁ :: m₂ :: '-' :: d₁ :: d₂ :: rest => do
    let year := 100 * (← twoDigits y₁ y₂) + (← twoDigits y₃ y₄)
    let month ← twoDigits m₁ m₂
    let day ← twoDigits d₁ d₂
    if 1 ≤ month ∧ month ≤ 12 ∧ 1 ≤ day ∧ day ≤ daysInMonth year month then some rest else none
  | _ => none

def afterMinutes : List Char → Option (List Char)
  | h₁ :: h₂ :: ':' :: m₁ :: m₂ :: rest => do
    let hour ← twoDigits h₁ h₂
    let minute ← twoDigits m₁ m₂
    if hour ≤ 23 ∧ minute ≤ 59 then some rest else none
  | _ => none

def afterFraction : List Char → Option (List Char)
  | '.' :: rest => if (rest.head?.map Char.isDigit) = some true then some (rest.dropWhile Char.isDigit) else none
  | rest => some rest

/-- What follows a time; the seconds may be left out, and a leap second has one. -/
def afterTime (cs : List Char) : Option (List Char) := do
  match ← afterMinutes cs with
  | ':' :: s₁ :: s₂ :: rest => if (← twoDigits s₁ s₂) ≤ 60 then afterFraction rest else none
  | rest => some rest

def isOffset : List Char → Bool
  | ['Z'] => true
  | ['z'] => true
  | '+' :: cs => afterMinutes cs == some []
  | '-' :: cs => afterMinutes cs == some []
  | _ => false

def isMoment (cs : List Char) : Bool :=
  match afterDate cs with
  | some [] => true
  | some (c :: rest) =>
    (c == 'T' || c == 't' || c == ' ') &&
      match afterTime rest with
      | some [] => true
      | some offset => isOffset offset
      | none => false
  | none => afterTime cs == some []

def isWordChar (c : Char) : Bool := c.isAlphanum || c == '_' || c == '+' || c == '-' || c == '.' || c == ':'

def wordNode (word : List Char) : Option Node :=
  if word = ['t', 'r', 'u', 'e'] then some (.boolean true)
  else if word = ['f', 'a', 'l', 's', 'e'] then some (.boolean false)
  else match integerOf word with
  | some n => if integerFits n then some (.integer n) else none
  | none =>
    if isFloat word then some (.float (String.ofList word))
    else if isMoment word then some (.moment (String.ofList word))
    else none

/-- A word and what follows it.  After a date, one blank and a digit begin the time of that date. -/
def wordScalar (cs : List Char) : Option (Node × List Char) :=
  let word := cs.takeWhile isWordChar
  let rest := cs.drop word.length
  match afterDate word, rest with
  | some [], ' ' :: c :: more =>
    if c.isDigit then
      let time := (c :: more).takeWhile isWordChar
      (wordNode (word ++ ' ' :: time)).map (·, (c :: more).drop time.length)
    else (wordNode word).map (·, rest)
  | _, _ => (wordNode word).map (·, rest)

end LooseExpr.Toml
