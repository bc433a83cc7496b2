import LooseExpr.Decimal.Numeral
/-!
# Values

What an expression evaluates to.  Structs and arrays are shared: a value holds the handle of one, and two handles are
equal only if they lead to the same struct or array of a `Store`.
-/
namespace LooseExpr

structure StructId where
  index : Nat
deriving DecidableEq, Inhabited

structure ArrayId where
  index : Nat
deriving DecidableEq, Inhabited

inductive Value where
  | null
  | bool (b : Bool)
  | number (d : Decimal)
  | text (s : String)
  | instant (milliseconds : Int)
  | struct (id : StructId)
  | array (id : ArrayId)
deriving DecidableEq, Inhabited

inductive ValueType where
  | null
  | boolean
  | number
  | string
  | datetime
  | struct
  | array
deriving DecidableEq, Inhabited

namespace ValueType

def name : ValueType → String
  | null => "null"
  | boolean => "boolean"
  | number => "number"
  | string => "string"
  | datetime => "datetime"
  | struct => "struct"
  | array => "array"

end ValueType

namespace Value

def type : Value → ValueType
  | null => .null
  | bool _ => .boolean
  | number _ => .number
  | text _ => .string
  | instant _ => .datetime
  | struct _ => .struct
  | array _ => .array

/-- A value with a handle. -/
def isComplex : Value → Bool
  | struct _ => true
  | array _ => true
  | _ => false

def isNull : Value → Bool
  | null => true
  | _ => false

def ofInt (n : Int) : Value := number (.ofInt n)

def boolText (b : Bool) : String := if b then "true" else "false"

def instantText (milliseconds : Int) : String := "\x7bts " ++ toString milliseconds ++ "\x7d"

end Value

end LooseExpr
