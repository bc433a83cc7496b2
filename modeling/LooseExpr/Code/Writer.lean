import LooseExpr.Code.Unit
import LooseExpr.Expr.Casting
/-!
# Writing code

A writer adds instructions to the end of a unit and keys to its table.  It may fail on the way; what was written before
the failure stays.  A jump forward is written without a place, and is given one in the code that is there as soon as
what it jumps over has been written; if that fails, the jump is left without a place.

The code of an expression leaves one value on the stack.  The code of a member name leaves a key.
-/
namespace LooseExpr

abbrev Writer := ExceptT Failure (StateM CodeUnit)

namespace Writer

def push (i : Instr) : Writer Unit := modify fun u => u.push i

def here : Writer Nat := return (← get).code.size

def patch (index place : Nat) : Writer Unit := modify fun u => u.patch index place

def register (name : String) : Writer Nat := do
  let u ← get
  let (index, keys) := u.keys.register name
  set { u with keys }
  return index

def upperCase : Writer Bool := return (← get).settings.dotNotationUpperCase

/-- A jump past what is written after it. -/
def jumpOver (jump : Nat → Instr) (body : Writer Unit) : Writer Unit := do
  let skip ← here
  push (jump Instr.unknownPlace)
  body
  patch skip (← here)

/-- Pops a truth value; goes on with the one or the other. -/
def branch (yes no : Writer Unit) : Writer Unit := do
  let toNo ← here
  push (.jumpIfFalse Instr.unknownPlace)
  yes
  let toEnd ← here
  push (.jump Instr.unknownPlace)
  patch toNo (← here)
  no
  patch toEnd (← here)

/-- Pushes the key of a name: a well-known one, or one of the table. -/
def key (name : String) : Writer Unit :=
  match Key.fieldName? name with
  | some field => push (.loadKeyConstant field)
  | none => do
    let index ← register name
    push (.loadKey (← get).name index)

/-- Pushes the key that a member is named by: at once if the name is a literal, else from its computed value. -/
def memberKey (upperCase : Bool) (name : Expr) (computed : Writer Unit) : Writer Unit :=
  match name.stripTextCasts with
  | .literal lit =>
    match (if upperCase then lit.upperCased else lit).value.text? with
    | some text => key text
    | none => throw (.rejected .nullKey lit.span)
  | _ => do
    computed
    push .toKey

end Writer

open Writer

/-- Pushes a constant; the word for null is a variable unless the settings know null. -/
def Constant.write : Constant → Writer Unit
  | boolean b => push (.pushBool b)
  | string s => push (.pushStr s)
  | number d => push (.pushNumber d.toText)
  | integer n => push (.pushInt n)
  | long n => push (.pushLong n)
  | null => push .pushNull
  | nullWord => do
    if (← get).settings.nullSupport then push .pushNull
    else
      push (.loadScope .undefined)
      key "null"
      push .getMemberOrNull
  | empty => push .pushEmpty

/-- The operator that decides between its operands by a jump. -/
def BoolOp.jump? : BoolOp → Option (Nat → Instr)
  | and => some .jumpIfFalse
  | or => some .jumpIfTrue
  | _ => none

mutual

def Expr.write : Expr → Writer Unit
  | .literal lit => lit.value.write
  | .newStruct => push .newStruct
  | .newArray => push .newArray
  | .var scope members _ => do
    push (.loadScope scope)
    Expr.writeMembers .getMember members
  | .cast e target _ =>
    -- the text of a literal is known, so that no cast is left to do
    match (if target.staticType = .string then e.literalText? else none) with
    | some text => push (.pushStr text)
    | none => do
      e.write
      push (.cast target)
  | .concat l r _ => do
    l.write
    r.write
    push .concat
  | .logic op l r _ =>
    match op.jump? with
    | some jump => do
      l.write
      -- the jump takes one of the two; the other is the result, if the left operand decides
      push .dup
      jumpOver jump do
        push .pop
        r.write
    | none => do
      l.write
      r.write
      push (.logic op)
  | .arith op l r _ => do
    l.write
    r.write
    push (.arith op)
  | .decision op l r _ => do
    l.write
    r.write
    push (.compare op)
  | .not e _ => do
    e.write
    push .not
  | .signed .plus e _ => e.write
  | .signed .minus e _ => do
    e.write
    push .neg
  | .assign scope members _ op value kind span =>
    if members.isEmpty then throw (.rejected (.scopeTarget scope) span)
    else do
      push (.loadScope scope)
      Expr.writeTarget members
      value.write
      push (.assign op kind)
  | .conditional c l r _ => do
    c.write
    branch l.write r.write
  | .elvis scope members _ r _ => do
    push (.loadScope scope)
    Expr.writeMembers .getMemberOrNull members
    push .dup
    jumpOver .jumpIfNotNull do
      push .pop
      r.write

def Expr.writeMembers (get : Instr) : List Expr → Writer Unit
  | [] => pure ()
  | m :: ms => do
    memberKey (← upperCase) m m.write
    push get
    Expr.writeMembers get ms

/-- Goes down to the struct that holds a member, and pushes the key of the member. -/
def Expr.writeTarget : List Expr → Writer Unit
  | [] => pure ()
  | [m] => do memberKey (← upperCase) m m.write
  | m :: m' :: ms => do
    memberKey (← upperCase) m m.write
    push .getMember
    Expr.writeTarget (m' :: ms)

end

namespace CodeUnit

def write (u : CodeUnit) (e : Expr) : Except Failure Unit × CodeUnit := e.write.run u

def writeKey (u : CodeUnit) (name : Expr) (upperCase : Bool) : Except Failure Unit × CodeUnit :=
  (Writer.memberKey upperCase name name.write).run u

end CodeUnit

end LooseExpr
