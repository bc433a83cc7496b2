import LooseExpr.Expr.Casting
import Mathlib.Tactic.SplitIfs
/-!
# Names of types

A type is declared by its name, and names are read in three places: where a tree is cast, where a value is converted and
where the static type of a cast is looked up.  Each of them lists the names on its own.  `NamedType.ofName` lists them
once, and all three read them as it does (`Expr.asNamed_eq`, `Value.toNamed_eq`, `CastTarget.staticType_other`).
-/
namespace LooseExpr

theorem Text.asciiLower_eq_iff (a b : String) : asciiLower a = asciiLower b ↔ eqIgnoringAsciiCase a b = true := by
  unfold asciiLower eqIgnoringAsciiCase
  rw [String.ofList_inj, beq_iff_eq]

theorem isTextTypeName_iff (name : String) : isTextTypeName name = true ↔
    Text.asciiLower name = "string" ∨ Text.asciiLower name = "java.lang.string" := by
  have hshort : Text.asciiLower "string" = "string" := by decide
  have hlong : Text.asciiLower "java.lang.string" = "java.lang.string" := by decide
  rw [isTextTypeName, Bool.or_eq_true, ← Text.asciiLower_eq_iff, ← Text.asciiLower_eq_iff, hshort, hlong]

/-- The types that can be declared by name. -/
inductive NamedType where
  | string
  | number
  | boolean
  | int
  | any
  | struct
  | array
  | unknown
deriving DecidableEq, Inhabited

/-- The type that a name declares, in any case of its letters. -/
def NamedType.ofName (name : String) : NamedType :=
  let name := Text.asciiLower name
  if name = "string" ∨ name = "java.lang.string" then string
  else if name = "number" ∨ name = "numeric" ∨ name = "double" then number
  else if name = "boolean" ∨ name = "bool" then boolean
  else if name = "int" ∨ name = "integer" then int
  else if name = "any" ∨ name = "object" then any
  else if name = "struct" then struct
  else if name = "array" then array
  else unknown

namespace NamedType

/-- The cast that a declared type stands for. -/
def target? : NamedType → Option CastTarget
  | string => some .string
  | number => some .number
  | boolean => some .boolean
  | int => some .int
  | _ => none

theorem ofName_eq_string_iff (name : String) : ofName name = .string ↔ isTextTypeName name = true := by
  rw [isTextTypeName_iff]
  unfold ofName
  simp only
  by_cases hstring : Text.asciiLower name = "string" ∨ Text.asciiLower name = "java.lang.string"
  · simp [hstring]
  · simp only [hstring, if_false, iff_false]
    split_ifs <;> simp

end NamedType

theorem CastTarget.staticType_other (name : String) :
    (other name).staticType = if NamedType.ofName name = .string then .string else .any := by
  simp only [staticType, NamedType.ofName_eq_string_iff]

theorem Expr.asNamed_eq (e : Expr) (name : String) : e.asNamed name =
    match NamedType.ofName name with
    | .string => e.asText
    | .number => e.asNumber
    | .boolean => e.asBoolean
    | .int => e.asInt
    | .any => e
    | _ => e.wrap (.other name) := by
  unfold asNamed NamedType.ofName
  simp only [isTextTypeName_iff]
  generalize Text.asciiLower name = word
  by_cases hstring : word = "string" ∨ word = "java.lang.string"
  · rw [if_pos hstring, if_pos hstring]
  · rw [if_neg hstring, if_neg hstring]
    split
    case h_10 =>
      simp_all only [imp_false, or_self, if_false]
      split_ifs <;> rfl
    all_goals simp

theorem Value.toNamed_eq (v : Value) (name : String) : v.toNamed name =
    match NamedType.ofName name, v with
    | .string, v => do return text (← v.toText)
    | .number, v => do return number (← v.toDecimal)
    | .boolean, v => do return bool (← v.toBoolean)
    | .int, v => do return ofInt (← v.toInt).toInt
    | .any, v => .ok v
    | .struct, .struct id => .ok (.struct id)
    | .array, .array id => .ok (.array id)
    | _, v => .error (.wrongType v.type name) := by
  unfold toNamed NamedType.ofName
  generalize Text.asciiLower name = word
  split
  case h_14 hstruct harray =>
    -- no name of a type that converts, and no struct or array under its own name
    simp_all only [imp_false, or_self, if_false]
    split_ifs
    next hword => cases v <;> first | rfl | exact (hstruct _ hword rfl).elim
    next hword => cases v <;> first | rfl | exact (harray _ hword rfl).elim
    next => rfl
  all_goals simp

end LooseExpr
