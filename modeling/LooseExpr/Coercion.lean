import LooseExpr.Fault
import LooseExpr.Key
import LooseExpr.Operator
import LooseExpr.Text.Blank
/-!
# Coercions

How a value of one type stands for one of another: numbers and truth values are read out of texts, whose outer blanks do
not count, and everything but structs and arrays has a text.
-/
namespace LooseExpr

namespace Text

def decimal? (s : String) : Option Decimal := Decimal.ofText? (trim s)

/-- The truth value that a text stands for: a word, or a number, of which zero is false. -/
def boolean? (s : String) : Option Bool :=
  let t := trim s
  if eqIgnoringAsciiCase t "true" || eqIgnoringAsciiCase t "yes" then some true
  else if eqIgnoringAsciiCase t "false" || eqIgnoringAsciiCase t "no" then some false
  else (decimal? t).map fun d => !d.isZero

end Text

namespace Value

def toDecimal : Value → Except Fault Decimal
  | number d => .ok d
  | bool b => .ok (if b then .one else .zero)
  | text s =>
    match Text.decimal? s with
    | some d => .ok d
    | none => .error (.notNumber s)
  | v => .error (.noNumber v.type)

def decimal? : Value → Option Decimal
  | number d => some d
  | text s => Text.decimal? s
  | _ => none

def toBoolean : Value → Except Fault Bool
  | bool b => .ok b
  | number d => .ok (!d.isZero)
  | text s =>
    match Text.boolean? s with
    | some b => .ok b
    | none => .error (.notBoolean s)
  | v => .error (.noBoolean v.type)

def toText : Value → Except Fault String
  | null => .ok ""
  | bool b => .ok (boolText b)
  | number d => .ok d.toText
  | text s => .ok s
  | instant ms => .ok (instantText ms)
  | v => .error (.noText v.type)

def toInt (v : Value) : Except Fault Int32 := do
  let d ← v.toDecimal
  match d.truncInt32? with
  | some n => .ok n
  | none => .error (.intRange d)

def toKey : Value → Except Fault Key
  | null => .error (.badKey .null)
  | struct _ => .error (.badKey .struct)
  | array _ => .error (.badKey .array)
  | v => do return ⟨← v.toText⟩

/-- The value as one of a type declared by name, in any case of its letters. -/
def toNamed (v : Value) (name : String) : Except Fault Value :=
  match Text.asciiLower name, v with
  | "string", v | "java.lang.string", v => do return text (← v.toText)
  | "number", v | "numeric", v | "double", v => do return number (← v.toDecimal)
  | "boolean", v | "bool", v => do return bool (← v.toBoolean)
  | "int", v | "integer", v => do return ofInt (← v.toInt).toInt
  | "any", v | "object", v => .ok v
  | "struct", struct id => .ok (struct id)
  | "array", array id => .ok (array id)
  | _, v => .error (.wrongType v.type name)

end Value

def CastTarget.apply (target : CastTarget) (v : Value) : Except Fault Value :=
  match target with
  | number => do return .number (← v.toDecimal)
  | string => do return .text (← v.toText)
  | boolean => do return .bool (← v.toBoolean)
  | int => do return .ofInt (← v.toInt).toInt
  | other name => v.toNamed name

end LooseExpr
