import LooseExpr.Expr.Basic
/-!
# Casts of expressions

Each of these gives an expression of the wanted type.  One that is known to have the type already stays as it is; a
literal that converts becomes a literal of the type; all else is put under a cast, to be done at evaluation.  Casts to
text are never folded: the cast costs nothing in emitted code, and `Expr.stripTextCasts` can take it off again.
-/
namespace LooseExpr

namespace Expr

def wrap (e : Expr) (target : CastTarget) : Expr := cast e target e.span

/-- The literal that a conversion makes of a literal expression, at the same place. -/
def fold? (e : Expr) (convert : Constant → Option Constant) : Option Expr :=
  match e with
  | literal lit => (convert lit.value).map fun value => literal ⟨value, lit.span⟩
  | _ => none

def asNumber (e : Expr) : Expr :=
  if e.staticType = .number then e
  else (e.fold? fun c => c.decimal?.map .number).getD (e.wrap .number)

def asText (e : Expr) : Expr := if e.staticType = .string then e else e.wrap .string

def asBoolean (e : Expr) : Expr :=
  if e.staticType = .boolean then e
  else (e.fold? fun c => c.boolean?.map .boolean).getD (e.wrap .boolean)

def asInt (e : Expr) : Expr :=
  if e.staticType = .int then e
  else (e.fold? fun c => (c.decimal?.bind Decimal.truncInt32?).map .integer).getD (e.wrap .int)

def asNamed (e : Expr) (name : String) : Expr :=
  if isTextTypeName name then e.asText
  else
    match Text.asciiLower name with
    | "number" | "numeric" | "double" => e.asNumber
    | "boolean" | "bool" => e.asBoolean
    | "int" | "integer" => e.asInt
    | "any" | "object" => e
    | _ => e.wrap (.other name)

def stripTextCasts : Expr → Expr
  | cast e target span => if target.staticType = .string then e.stripTextCasts else cast e target span
  | e => e

end Expr

end LooseExpr
