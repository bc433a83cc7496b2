import LooseExpr.Operator
import LooseExpr.Scope
import LooseExpr.Text.Json
/-!
# Instructions

The instructions of a stack machine.  Jumps name the place of another instruction of the same unit; before it is known
they name `Instr.unknownPlace`.
-/
namespace LooseExpr

inductive Instr where
  | pushStr (s : String)
  | pushBool (b : Bool)
  /-- Pushes the number with this text. -/
  | pushNumber (text : String)
  | pushInt (n : Int32)
  | pushLong (n : Int64)
  | pushNull
  | pushEmpty
  | newStruct
  | newArray
  /-- Pushes a well-known key, by its field. -/
  | loadKeyConstant (field : String)
  /-- Pushes a key of the table of a unit. -/
  | loadKey (unit : String) (index : Nat)
  /-- Turns a value into a key. -/
  | toKey
  | loadScope (scope : Scope)
  /-- Pops a key and a struct and pushes the entry, which has to be there. -/
  | getMember
  /-- Pops a key and a struct and pushes the entry, or null. -/
  | getMemberOrNull
  | cast (target : CastTarget)
  | concat
  | arith (op : NumberOp)
  | compare (op : DecisionOp)
  | logic (op : BoolOp)
  | not
  | neg
  /-- Pops a value, a key and a struct, changes the entry and pushes its old or new value. -/
  | assign (op : Option NumberOp) (kind : AssignKind)
  | dup
  | pop
  | jump (target : Nat)
  /-- Pops a truth value, and goes on elsewhere if it is false. -/
  | jumpIfFalse (target : Nat)
  | jumpIfTrue (target : Nat)
  /-- Pops a value, and goes on elsewhere if it is not null. -/
  | jumpIfNotNull (target : Nat)
deriving DecidableEq, Inhabited

namespace Instr

/-- Where a jump leads whose end is not known yet. -/
def unknownPlace : Nat := 18446744073709551615

/-- The instruction with another place to jump to; only jumps have one. -/
def retarget (place : Nat) : Instr → Instr
  | jump _ => jump place
  | jumpIfFalse _ => jumpIfFalse place
  | jumpIfTrue _ => jumpIfTrue place
  | jumpIfNotNull _ => jumpIfNotNull place
  | i => i

def tagged (tag : String) (doc : Json) : Json := .obj [(tag, doc)]

def targetDoc : CastTarget → Json
  | .number => .str "Number"
  | .string => .str "String"
  | .boolean => .str "Boolean"
  | .int => .str "Int"
  | .other name => tagged "Other" (.str name)

def toJson : Instr → Json
  | pushStr s => tagged "PushStr" (.str s)
  | pushBool b => tagged "PushBool" (.bool b)
  | pushNumber text => tagged "PushNumber" (.str text)
  | pushInt n => tagged "PushInt" (.int n.toInt)
  | pushLong n => tagged "PushLong" (.int n.toInt)
  | pushNull => .str "PushNull"
  | pushEmpty => .str "PushEmpty"
  | newStruct => .str "NewStruct"
  | newArray => .str "NewArray"
  | loadKeyConstant field => tagged "LoadKeyConstant" (.str field)
  | loadKey unit index => tagged "LoadKey" (.obj [("unit", .str unit), ("index", .int index)])
  | toKey => .str "ToKey"
  | loadScope scope => tagged "LoadScope" (.str scope.title)
  | getMember => .str "GetMember"
  | getMemberOrNull => .str "GetMemberOrNull"
  | cast target => tagged "Cast" (targetDoc target)
  | concat => .str "Concat"
  | arith op => tagged "Arith" (.str op.name)
  | compare op => tagged "Compare" (.str op.name)
  | logic op => tagged "Logic" (.str op.name)
  | not => .str "Not"
  | neg => .str "Neg"
  | assign op kind =>
    tagged "UnaryAssign" (.obj [("op", op.elim .null fun op => .str op.name), ("assign", .str kind.name)])
  | dup => .str "Dup"
  | pop => .str "Pop"
  | jump place => tagged "Jump" (.int place)
  | jumpIfFalse place => tagged "JumpIfFalse" (.int place)
  | jumpIfTrue place => tagged "JumpIfTrue" (.int place)
  | jumpIfNotNull place => tagged "JumpIfNotNull" (.int place)

end Instr

end LooseExpr
