import LooseExpr.Code.Writer
/-!
# Emitters

What writing code comes to, said without the code that is there.  An emitter knows the place of its first instruction and
the keys so far.  It yields the instructions to append and the new key table, and may fail on the way; what was emitted
before the failure stays.  Emitters are put one after the other with `++`.  A jump forward is emitted together with what
it jumps over, and so with its place; if emitting that fails, the jump is left without a place.
-/
namespace LooseExpr

/-- What an emitter yields. -/
structure Emission where
  code : List Instr
  keys : KeyTable
  failure : Option Failure

structure Emit where
  run : (place : Nat) → KeyTable → Emission

/-- What emitters of one unit share. -/
structure Emit.Env where
  settings : Settings
  unit : String

namespace Emit

def nothing : Emit := ⟨fun _ keys => ⟨[], keys, none⟩⟩

def push (i : Instr) : Emit := ⟨fun _ keys => ⟨[i], keys, none⟩⟩

def fail (failure : Failure) : Emit := ⟨fun _ keys => ⟨[], keys, some failure⟩⟩

def andThen (a b : Emit) : Emit := ⟨fun place keys =>
  let first := a.run place keys
  match first.failure with
  | some _ => first
  | none =>
    let second := b.run (place + first.code.length) first.keys
    ⟨first.code ++ second.code, second.keys, second.failure⟩⟩

instance : Append Emit := ⟨andThen⟩

/-- A jump past what is emitted after it. -/
def jumpOver (jump : Nat → Instr) (body : Emit) : Emit := ⟨fun place keys =>
  let inner := body.run (place + 1) keys
  let target := if inner.failure.isSome then Instr.unknownPlace else place + 1 + inner.code.length
  ⟨jump target :: inner.code, inner.keys, inner.failure⟩⟩

/-- Pops a truth value; goes on with the one or the other. -/
def branch (yes no : Emit) : Emit := ⟨fun place keys =>
  let first := yes.run (place + 1) keys
  match first.failure with
  | some failure => ⟨.jumpIfFalse Instr.unknownPlace :: first.code, first.keys, some failure⟩
  | none =>
    let past := place + 1 + first.code.length
    let second := (jumpOver .jump no).run past first.keys
    ⟨.jumpIfFalse (past + 1) :: (first.code ++ second.code), second.keys, second.failure⟩⟩

/-- Pushes the key of a name: a well-known one, or one of the table. -/
def key (env : Env) (name : String) : Emit :=
  match Key.fieldName? name with
  | some field => push (.loadKeyConstant field)
  | none => ⟨fun _ keys =>
      let (index, keys) := keys.register name
      ⟨[.loadKey env.unit index], keys, none⟩⟩

/-- Pushes the key that a member is named by: at once if the name is a literal, else from its computed value. -/
def memberKey (env : Env) (upperCase : Bool) (name : Expr) (computed : Emit) : Emit :=
  match name.stripTextCasts with
  | .literal lit =>
    match (if upperCase then lit.upperCased else lit).value.text? with
    | some text => key env text
    | none => fail (.rejected .nullKey lit.span)
  | _ => computed ++ push .toKey

end Emit

def Constant.emit (env : Emit.Env) : Constant → Emit
  | boolean b => .push (.pushBool b)
  | string s => .push (.pushStr s)
  | number d => .push (.pushNumber d.toText)
  | integer n => .push (.pushInt n)
  | long n => .push (.pushLong n)
  | null => .push .pushNull
  | nullWord =>
    if env.settings.nullSupport then .push .pushNull
    else .push (.loadScope .undefined) ++ .key env "null" ++ .push .getMemberOrNull
  | empty => .push .pushEmpty

mutual

def Expr.emit (env : Emit.Env) : Expr → Emit
  | .literal lit => lit.value.emit env
  | .newStruct => .push .newStruct
  | .newArray => .push .newArray
  | .var scope members _ => .push (.loadScope scope) ++ Expr.emitMembers env .getMember members
  | .cast e target _ =>
    match (if target.staticType = .string then e.literalText? else none) with
    | some text => .push (.pushStr text)
    | none => e.emit env ++ .push (.cast target)
  | .concat l r _ => l.emit env ++ r.emit env ++ .push .concat
  | .logic op l r _ =>
    match op.jump? with
    | some jump => l.emit env ++ .push .dup ++ .jumpOver jump (.push .pop ++ r.emit env)
    | none => l.emit env ++ r.emit env ++ .push (.logic op)
  | .arith op l r _ => l.emit env ++ r.emit env ++ .push (.arith op)
  | .decision op l r _ => l.emit env ++ r.emit env ++ .push (.compare op)
  | .not e _ => e.emit env ++ .push .not
  | .signed .plus e _ => e.emit env
  | .signed .minus e _ => e.emit env ++ .push .neg
  | .assign scope members _ op value kind span =>
    if members.isEmpty then .fail (.rejected (.scopeTarget scope) span)
    else .push (.loadScope scope) ++ Expr.emitTarget env members ++ value.emit env ++ .push (.assign op kind)
  | .conditional c l r _ => c.emit env ++ .branch (l.emit env) (r.emit env)
  | .elvis scope members _ r _ =>
    .push (.loadScope scope) ++ Expr.emitMembers env .getMemberOrNull members ++ .push .dup
      ++ .jumpOver .jumpIfNotNull (.push .pop ++ r.emit env)

def Expr.emitMembers (env : Emit.Env) (get : Instr) : List Expr → Emit
  | [] => .nothing
  | m :: ms =>
    .memberKey env env.settings.dotNotationUpperCase m (m.emit env) ++ .push get ++ Expr.emitMembers env get ms

def Expr.emitTarget (env : Emit.Env) : List Expr → Emit
  | [] => .nothing
  | [m] => .memberKey env env.settings.dotNotationUpperCase m (m.emit env)
  | m :: m' :: ms =>
    .memberKey env env.settings.dotNotationUpperCase m (m.emit env) ++ .push .getMember
      ++ Expr.emitTarget env (m' :: ms)

end

namespace Emit

section

variable {place : Nat} {keys : KeyTable} {a : Emit}

theorem run_append_of_some {failure : Failure} (h : (a.run place keys).failure = some failure) (b : Emit) :
    (a ++ b).run place keys = a.run place keys := by
  show (a.andThen b).run place keys = _
  unfold andThen
  simp only [h]

theorem run_append_of_none (h : (a.run place keys).failure = none) (b : Emit) : (a ++ b).run place keys =
    let second := b.run (place + (a.run place keys).code.length) (a.run place keys).keys
    ⟨(a.run place keys).code ++ second.code, second.keys, second.failure⟩ := by
  show (a.andThen b).run place keys = _
  unfold andThen
  simp only [h]

end

theorem append_assoc (a b c : Emit) : a ++ b ++ c = a ++ (b ++ c) := by
  have hrun : (a ++ b ++ c).run = (a ++ (b ++ c)).run := by
    funext place keys
    cases ha : (a.run place keys).failure with
    | some failure =>
      have hab := run_append_of_some ha b
      rw [run_append_of_some (hab ▸ ha), hab, run_append_of_some ha]
    | none =>
      have hab := run_append_of_none ha b
      rw [run_append_of_none ha (b ++ c)]
      cases hb : (b.run (place + (a.run place keys).code.length) (a.run place keys).keys).failure with
      | some failure =>
        rw [run_append_of_some (by rw [hab]; exact hb), hab, run_append_of_some hb]
      | none =>
        rw [run_append_of_none (by rw [hab]; exact hb), hab, run_append_of_none hb]
        simp only [List.length_append, List.append_assoc, Nat.add_assoc]
  exact congrArg mk hrun

end Emit

end LooseExpr
