import LooseExpr.Decimal.Power
import LooseExpr.Scope
import LooseExpr.Value
/-!
# Faults

Why an evaluation fails.  Each cause has a kind and a text; the text is made in one place, `Fault.message`.  Code outside
this library may state a fault of any kind in its own words (`Fault.stated`).
-/
namespace LooseExpr

inductive FaultKind where
  | cast
  | restriction
  | divisionByZero
  | arithmetic
  | undefinedVariable
  | invalidKey
  | settings
  | custom
deriving DecidableEq, Inhabited

/-- A text after the heading that its kind gives it. -/
def FaultKind.headed (detail : String) : FaultKind → String
  | .cast => "CastError: " ++ detail
  | .restriction => "SecurityError: " ++ detail
  | .divisionByZero => "DivisionByZero: division by zero"
  | .arithmetic => "ArithmeticError: " ++ detail
  | .undefinedVariable => "UndefinedError: variable [" ++ detail ++ "] doesn't exist"
  | .invalidKey => "KeyError: " ++ detail
  | .settings => "ConfigError: " ++ detail
  | .custom => detail

inductive Fault where
  | arithmetic (why : ArithmeticFault)
  /-- A text that is no number where one is needed. -/
  | notNumber (text : String)
  /-- A value of a type without numbers where one is needed. -/
  | noNumber (type : ValueType)
  /-- A text that is no truth value where one is needed. -/
  | notBoolean (text : String)
  /-- A value of a type without truth values where one is needed. -/
  | noBoolean (type : ValueType)
  /-- A struct or array where a text is needed. -/
  | noText (type : ValueType)
  /-- A number whose whole part does not fit in 32 bits. -/
  | intRange (d : Decimal)
  /-- A value that has not the declared type. -/
  | wrongType (type : ValueType) (declared : String)
  /-- A comparison with a struct or array. -/
  | incomparable (left right : ValueType)
  /-- A member of something that is not a struct. -/
  | noMember (key : String) (type : ValueType)
  /-- An assignment into something that is not a struct. -/
  | noAssignment (key : String) (type : ValueType)
  /-- A value that cannot name an entry. -/
  | badKey (type : ValueType)
  /-- An assignment to a scope and not to a variable in it. -/
  | scopeTarget (scope : Scope)
  | undefinedVariable (name : String)
  /-- Arithmetic in a restricted session. -/
  | restricted
  /-- Settings whose precision is zero. -/
  | zeroPrecision
  /-- Settings that cannot be read. -/
  | unreadableSettings
  | stated (kind : FaultKind) (text : String)
deriving DecidableEq

namespace Fault

def kind : Fault → FaultKind
  | arithmetic .divisionByZero => .divisionByZero
  | arithmetic _ => .arithmetic
  | notNumber _ | noNumber _ | notBoolean _ | noBoolean _ | noText _ | intRange _ | wrongType .. | incomparable ..
  | noMember .. | noAssignment .. => .cast
  | badKey _ | scopeTarget _ => .invalidKey
  | undefinedVariable _ => .undefinedVariable
  | restricted => .restriction
  | zeroPrecision | unreadableSettings => .settings
  | stated kind _ => kind

/-- The text of a fault, without what its kind adds. -/
def detail : Fault → String
  | arithmetic why => why.detail
  | notNumber text => "cannot convert string [" ++ text ++ "] to a number"
  | noNumber type => "cannot convert " ++ type.name ++ " to a number"
  | notBoolean text => "cannot convert string [" ++ text ++ "] to a boolean"
  | noBoolean type => "cannot convert " ++ type.name ++ " to a boolean"
  | noText type => "cannot convert complex object [" ++ type.name ++ "] to a string"
  | intRange d => d.toText ++ " is out of range for an integer"
  | wrongType type declared => "cannot convert " ++ type.name ++ " to " ++ declared
  | incomparable left right =>
    "can't compare complex object types [" ++ left.name ++ "] and [" ++ right.name ++ "]"
  | noMember key type => "can't access key [" ++ key ++ "] on a value of type " ++ type.name
  | noAssignment key type => "can't assign key [" ++ key ++ "] on a value of type " ++ type.name
  | badKey type => "a " ++ type.name ++ " can't be used as a key"
  | scopeTarget scope => "can't assign to the " ++ scope.name ++ " scope itself"
  | undefinedVariable name => name
  | restricted => "invalid syntax, math operations are not supported in a json string."
  | zeroPrecision => "division_precision must be at least 1"
  | unreadableSettings => "the settings cannot be read"
  | stated _ text => text

def message (f : Fault) : String := FaultKind.headed f.detail f.kind

def isRestriction (f : Fault) : Bool := f.kind == .restriction

end Fault

end LooseExpr
