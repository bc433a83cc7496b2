import LooseExpr.Coercion
import LooseExpr.Failure
/-!
# Expression trees

A tree as a reader of source texts builds it.  Each node but the two empty collections may know where it stands in the
source.  The operands of an operator are stored with the casts that the operator needs.  `Expr.staticType` is what can
be said about a value before the tree is evaluated.
-/
namespace LooseExpr

inductive StaticType where
  | any
  | string
  | number
  | boolean
  | int
  | long
  | null
deriving DecidableEq, Inhabited

def StaticType.name : StaticType → String
  | .any => "Any"
  | .string => "String"
  | .number => "Number"
  | .boolean => "Boolean"
  | .int => "Int"
  | .long => "Long"
  | .null => "Null"

inductive Constant where
  | boolean (b : Bool)
  | string (s : String)
  | number (d : Decimal)
  | integer (n : Int32)
  | long (n : Int64)
  | null
  /-- The word for null, whose meaning the settings decide. -/
  | nullWord
  /-- What stands for a value left out. -/
  | empty
deriving DecidableEq, Inhabited

structure Literal where
  value : Constant
  span : Option Span
deriving DecidableEq, Inhabited

inductive Expr where
  | literal (lit : Literal)
  | newStruct
  | newArray
  | var (scope : Scope) (members : List Expr) (span : Option Span)
  | cast (e : Expr) (target : CastTarget) (span : Option Span)
  | concat (l r : Expr) (span : Option Span)
  | logic (op : BoolOp) (l r : Expr) (span : Option Span)
  | arith (op : NumberOp) (l r : Expr) (span : Option Span)
  | decision (op : DecisionOp) (l r : Expr) (span : Option Span)
  | not (e : Expr) (span : Option Span)
  | signed (op : SignOp) (e : Expr) (span : Option Span)
  /-- A compound assignment; without an operator it joins texts. -/
  | assign (scope : Scope) (members : List Expr) (varSpan : Option Span) (op : Option NumberOp) (value : Expr)
      (kind : AssignKind) (span : Option Span)
  | conditional (c l r : Expr) (span : Option Span)
  /-- A variable, or something else where it is null or missing. -/
  | elvis (scope : Scope) (members : List Expr) (varSpan : Option Span) (r : Expr) (span : Option Span)
deriving Inhabited

/-- A variable of a source text: a scope and the names of the members, one below the other. -/
structure Chain where
  scope : Scope
  members : List Expr
  span : Option Span
deriving Inhabited

/-! ## Literals -/

def isTextTypeName (name : String) : Bool :=
  Text.eqIgnoringAsciiCase name "string" || Text.eqIgnoringAsciiCase name "java.lang.string"

def CastTarget.staticType : CastTarget → StaticType
  | number => .number
  | string => .string
  | boolean => .boolean
  | int => .int
  | other name => if isTextTypeName name then .string else .any

namespace Constant

def staticType : Constant → StaticType
  | boolean _ => .boolean
  | string _ => .string
  | number _ => .number
  | integer _ => .int
  | long _ => .long
  | null => .null
  | nullWord => .null
  | empty => .string

def text? : Constant → Option String
  | boolean b => some (Value.boolText b)
  | string s => some s
  | number d => some d.toText
  | integer n => some (toString n.toInt)
  | long n => some (toString n.toInt)
  | null => none
  | nullWord => none
  | empty => some ""

def decimal? : Constant → Option Decimal
  | boolean b => some (if b then .one else .zero)
  | string s => Text.decimal? s
  | number d => some d
  | integer n => some (.ofInt n.toInt)
  | long n => some (.ofInt n.toInt)
  | _ => none

def boolean? : Constant → Option Bool
  | boolean b => some b
  | string s => Text.boolean? s
  | number d => some (!d.isZero)
  | integer n => some (n.toInt != 0)
  | long n => some (n.toInt != 0)
  | _ => none

end Constant

/-- The literal of the text in upper case; a literal without a text stays as it is. -/
def Literal.upperCased (lit : Literal) : Literal :=
  match lit.value.text? with
  | some text => ⟨.string (Text.upper text), lit.span⟩
  | none => lit

/-! ## Nodes -/

namespace Expr

def span : Expr → Option Span
  | literal lit => lit.span
  | newStruct => none
  | newArray => none
  | var _ _ span => span
  | cast _ _ span => span
  | concat _ _ span => span
  | logic _ _ _ span => span
  | arith _ _ _ span => span
  | decision _ _ _ span => span
  | not _ span => span
  | signed _ _ span => span
  | assign _ _ _ _ _ _ span => span
  | conditional _ _ _ span => span
  | elvis _ _ _ _ span => span

def staticType : Expr → StaticType
  | literal lit => lit.value.staticType
  | newStruct => .any
  | newArray => .any
  | var .. => .any
  | cast _ target _ => target.staticType
  | concat .. => .string
  | logic .. => .boolean
  | arith .. => .number
  | decision .. => .boolean
  | not .. => .boolean
  | signed .. => .number
  | assign _ _ _ (some _) _ _ _ => .number
  | assign _ _ _ none _ _ _ => .string
  | conditional _ l r _ =>
    let left := l.staticType
    if left = r.staticType then left else .any
  | elvis .. => .any

def literal? : Expr → Option Literal
  | literal lit => some lit
  | _ => none

def literalText? (e : Expr) : Option String := e.literal?.bind fun lit => lit.value.text?

/-- The null literal; the word for null is not one. -/
def isNull : Expr → Bool
  | literal ⟨.null, _⟩ => true
  | _ => false

mutual

/-- The trees are equal, node by node, spans included. -/
def same : Expr → Expr → Bool
  | literal a, literal b => a == b
  | newStruct, newStruct => true
  | newArray, newArray => true
  | var s ms p, var s' ms' p' => s == s' && sameAll ms ms' && p == p'
  | cast e t p, cast e' t' p' => e.same e' && t == t' && p == p'
  | concat l r p, concat l' r' p' => l.same l' && r.same r' && p == p'
  | logic o l r p, logic o' l' r' p' => o == o' && l.same l' && r.same r' && p == p'
  | arith o l r p, arith o' l' r' p' => o == o' && l.same l' && r.same r' && p == p'
  | decision o l r p, decision o' l' r' p' => o == o' && l.same l' && r.same r' && p == p'
  | not e p, not e' p' => e.same e' && p == p'
  | signed o e p, signed o' e' p' => o == o' && e.same e' && p == p'
  | assign s ms q o v k p, assign s' ms' q' o' v' k' p' =>
    s == s' && sameAll ms ms' && q == q' && o == o' && v.same v' && k == k' && p == p'
  | conditional c l r p, conditional c' l' r' p' => c.same c' && l.same l' && r.same r' && p == p'
  | elvis s ms q r p, elvis s' ms' q' r' p' => s == s' && sameAll ms ms' && q == q' && r.same r' && p == p'
  | _, _ => false

def sameAll : List Expr → List Expr → Bool
  | [], [] => true
  | e :: es, e' :: es' => e.same e' && sameAll es es'
  | _, _ => false

end

end Expr

end LooseExpr
