import LooseExpr.Fault
import LooseExpr.Operator
import LooseExpr.Scope
import LooseExpr.Value
/-!
# References

A reference is an expression made ready for evaluation.  It is resolved anew each time it is asked for its value;
nothing is kept from one time to the next, and operands are resolved from left to right.  `Ref.marked` and `Ref.failing`
are for observers: the first tells that it was resolved, the second never has a value.
-/
namespace LooseExpr

inductive Ref where
  | literal (v : Value)
  | newStruct
  | newArray
  | var (scope : Scope) (members : List Ref)
  /-- A variable that is null where it is not defined. -/
  | varOrNull (scope : Scope) (members : List Ref)
  | concat (l r : Ref)
  | not (e : Ref)
  | signed (op : SignOp) (e : Ref)
  | decision (op : DecisionOp) (l r : Ref)
  | logic (op : BoolOp) (l r : Ref)
  | arith (op : NumberOp) (l r : Ref)
  | conditional (c l r : Ref)
  | elvis (l r : Ref)
  /-- A compound assignment; without an operator it joins texts. -/
  | assign (scope : Scope) (members : List Ref) (op : Option NumberOp) (value : Ref) (kind : AssignKind)
  | cast (e : Ref) (target : CastTarget)
  | marked (mark : String) (e : Ref)
  | failing (f : Fault)
deriving Inhabited

def Ref.kindName : Ref → String
  | literal _ => "literal"
  | newStruct => "struct"
  | newArray => "array"
  | var .. => "variable"
  | varOrNull .. => "null"
  | concat .. => "concat"
  | not _ => "not"
  | signed .. => "negate"
  | decision .. => "decision"
  | logic .. => "logic"
  | arith .. => "operation"
  | conditional .. => "conditional"
  | elvis .. => "elvis"
  | assign .. => "assignment"
  | cast .. => "cast"
  | marked .. => "probe"
  | failing _ => "fail"

end LooseExpr
