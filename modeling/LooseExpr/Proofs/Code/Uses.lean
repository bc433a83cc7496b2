import LooseExpr.Proofs.Code.Depth
/-!
# The names that code needs keys for

`Expr.uses` lists the names in a tree that keys are loaded for, in the order of evaluation and in the case in which they
are looked up, up to the place where no code can be made.  It is read off the tree; instructions, places and key tables
do not occur in it.

`Emit.Assembled` says how an emitter is put together, and of what names it loads the keys.  The emitter of every tree is
put together in this way, from the names of the tree (`Expr.emit_assembled`), so that a property of all emission needs
one case for each way of putting emitters together, and none for the kinds of trees.
-/
namespace LooseExpr

/-- Names in the order of their use; `complete` if nothing stopped the use of names before its end. -/
structure Uses where
  names : List String
  complete : Bool
deriving DecidableEq

namespace Uses

def nil : Uses := ⟨[], true⟩

def one (name : String) : Uses := ⟨[name], true⟩

def stop : Uses := ⟨[], false⟩

def andThen (a b : Uses) : Uses := if a.complete then ⟨a.names ++ b.names, b.complete⟩ else a

instance : Append Uses := ⟨andThen⟩

theorem append_of_complete {a : Uses} (h : a.complete = true) (b : Uses) :
    a ++ b = ⟨a.names ++ b.names, b.complete⟩ := if_pos h

theorem append_of_not_complete {a : Uses} (h : a.complete = false) (b : Uses) : a ++ b = a :=
  if_neg (by rw [h]; exact Bool.false_ne_true)

@[simp] theorem nil_append (a : Uses) : nil ++ a = a := rfl

@[simp] theorem append_nil (a : Uses) : a ++ nil = a := by
  obtain ⟨names, complete⟩ := a
  cases complete
  · rfl
  · simp [append_of_complete, nil]

/-- The use of a member: its name as a literal, or else the names in the tree that it is computed by. -/
def ofMember (upperCase : Bool) (name : Expr) (computed : Uses) : Uses :=
  match name.stripTextCasts with
  | .literal lit =>
    match lit.value.text? with
    | some text => one (if upperCase then Text.upper text else text)
    | none => stop
  | _ => computed

end Uses

mutual

/-- The names that keys are loaded for. -/
def Expr.uses (settings : Settings) : Expr → Uses
  | .literal lit => if lit.value = .nullWord ∧ settings.nullSupport = false then .one "null" else .nil
  | .newStruct => .nil
  | .newArray => .nil
  | .var _ members _ => Expr.usesMembers settings members
  | .cast e _ _ => e.uses settings
  | .concat l r _ => l.uses settings ++ r.uses settings
  | .logic _ l r _ => l.uses settings ++ r.uses settings
  | .arith _ l r _ => l.uses settings ++ r.uses settings
  | .decision _ l r _ => l.uses settings ++ r.uses settings
  | .not e _ => e.uses settings
  | .signed _ e _ => e.uses settings
  | .assign _ members _ _ value _ _ =>
    if members.isEmpty then .stop else Expr.usesMembers settings members ++ value.uses settings
  | .conditional c l r _ => c.uses settings ++ (l.uses settings ++ r.uses settings)
  | .elvis _ members _ r _ => Expr.usesMembers settings members ++ r.uses settings

def Expr.usesMembers (settings : Settings) : List Expr → Uses
  | [] => .nil
  | m :: ms => .ofMember settings.dotNotationUpperCase m (m.uses settings) ++ Expr.usesMembers settings ms

end

/-! ## How emitters are put together -/

/-- The instruction pushes a key that was known when the code was emitted. -/
def Instr.loadsKey : Instr → Bool
  | loadKeyConstant _ => true
  | loadKey .. => true
  | _ => false

theorem Instr.loadsKey_of_target? {i : Instr} {place : Nat} (h : i.target? = some place) : i.loadsKey = false := by
  cases i with
  | loadKeyConstant _ => cases h
  | loadKey _ _ => cases h
  | _ => rfl

/-- A kind of jump: the instructions that differ in their place only. -/
structure Instr.IsJump (jump : Nat → Instr) : Prop where
  target? : ∀ place, (jump place).target? = some place
  retarget : ∀ place place', (jump place).retarget place' = jump place'

theorem Literal.text?_upperCased (lit : Literal) (upperCase : Bool) :
    (if upperCase then lit.upperCased else lit).value.text? =
      lit.value.text?.map fun text => if upperCase then Text.upper text else text := by
  cases upperCase with
  | false => simp
  | true =>
    unfold upperCased
    cases htext : lit.value.text? with
    | none => simpa using htext
    | some text => rfl

namespace Emit

/-- **Two ways to go on are the one and a jump over the other**, after a jump to the start of the other. -/
theorem run_branch (a b : Emit) (place : Nat) (keys : KeyTable) : (branch a b).run place keys =
    let inner := (a ++ jumpOver .jump b).run (place + 1) keys
    ⟨.jumpIfFalse (if (a.run (place + 1) keys).failure.isSome then Instr.unknownPlace
        else place + 1 + (a.run (place + 1) keys).code.length + 1) :: inner.code, inner.keys, inner.failure⟩ := by
  unfold branch
  cases h : (a.run (place + 1) keys).failure with
  | some failure => simp only [run_append_of_some h, h, Option.isSome_some, if_true]
  | none => simp only [run_append_of_none h, h, Option.isSome_none, Bool.false_eq_true, if_false]

/-- **The emitter is put together from parts**, and loads the keys of these names, one after the other. -/
inductive Assembled (env : Env) : Emit → Uses → Prop
  | nothing : Assembled env nothing .nil
  | push {i : Instr} : i.target? = none → i.loadsKey = false → Assembled env (push i) .nil
  | fail (failure : Failure) : Assembled env (fail failure) .stop
  | key (name : String) : Assembled env (key env name) (.one name)
  | append {a b : Emit} {u v : Uses} : Assembled env a u → Assembled env b v → Assembled env (a ++ b) (u ++ v)
  | jumpOver {jump : Nat → Instr} {a : Emit} {u : Uses} :
    Instr.IsJump jump → Assembled env a u → Assembled env (jumpOver jump a) u
  | branch {a b : Emit} {u v : Uses} : Assembled env a u → Assembled env b v → Assembled env (branch a b) (u ++ v)

namespace Assembled

variable {env : Env} {a b : Emit} {u v : Uses} {i : Instr}

theorem andPush (ha : Assembled env a u) (hjump : i.target? = none) (hkey : i.loadsKey = false) :
    Assembled env (a ++ Emit.push i) u := by
  have h := ha.append (.push hjump hkey)
  rwa [Uses.append_nil] at h

theorem afterPush (hjump : i.target? = none) (hkey : i.loadsKey = false) (ha : Assembled env a u) :
    Assembled env (Emit.push i ++ a) u := Assembled.append (.push hjump hkey) ha

theorem binary (hjump : i.target? = none) (hkey : i.loadsKey = false) (ha : Assembled env a u)
    (hb : Assembled env b v) : Assembled env (a ++ b ++ Emit.push i) (u ++ v) := (ha.append hb).andPush hjump hkey

theorem keepOr {jump : Nat → Instr} (hjump : Instr.IsJump jump) (ha : Assembled env a u) (hb : Assembled env b v) :
    Assembled env (a ++ Emit.push .dup ++ Emit.jumpOver jump (Emit.push .pop ++ b)) (u ++ v) :=
  (ha.andPush rfl rfl).append (.jumpOver hjump (.afterPush rfl rfl hb))

theorem memberKey (upperCase : Bool) (name : Expr) (ha : Assembled env a u) :
    Assembled env (Emit.memberKey env upperCase name a) (.ofMember upperCase name u) := by
  unfold Emit.memberKey Uses.ofMember
  cases hname : name.stripTextCasts with
  | literal lit =>
    simp only [lit.text?_upperCased]
    cases htext : lit.value.text? with
    | none => exact .fail _
    | some text => exact .key _
  | _ => exact ha.andPush rfl rfl

end Assembled

end Emit

theorem Constant.emit_assembled (env : Emit.Env) (c : Constant) : Emit.Assembled env (c.emit env)
    (if c = .nullWord ∧ env.settings.nullSupport = false then .one "null" else .nil) := by
  cases c with
  | nullWord =>
    unfold emit
    cases env.settings.nullSupport with
    | true => exact .push rfl rfl
    | false => exact (Emit.Assembled.afterPush rfl rfl (.key "null")).andPush rfl rfl
  | _ => exact .push rfl rfl

namespace Expr

theorem uses_of_literalText? {e : Expr} {text : String} (h : e.literalText? = some text) (settings : Settings) :
    e.uses settings = .nil := by
  cases e with
  | literal lit =>
    have htext : lit.value.text? = some text := h
    have hne : lit.value ≠ .nullWord := by
      intro hnull
      rw [hnull] at htext
      cases htext
    rw [uses, if_neg (fun hand => hne hand.1)]
  | _ => cases h

mutual

/-- **The emitter of a tree is put together from the names of the tree.** -/
theorem emit_assembled (env : Emit.Env) : ∀ e : Expr, Emit.Assembled env (e.emit env) (e.uses env.settings)
  | .literal lit => by
    rw [emit, uses]
    exact lit.value.emit_assembled env
  | .newStruct => by
    rw [emit, uses]
    exact .push rfl rfl
  | .newArray => by
    rw [emit, uses]
    exact .push rfl rfl
  | .var scope members _ => by
    rw [emit, uses]
    exact .afterPush rfl rfl (emitMembers_assembled env rfl rfl members)
  | .cast e target _ => by
    rw [emit, uses]
    split
    · rename_i text htext
      have hliteral : e.literalText? = some text := by
        by_cases htarget : target.staticType = .string
        · rwa [if_pos htarget] at htext
        · rw [if_neg htarget] at htext
          cases htext
      rw [uses_of_literalText? hliteral]
      exact .push rfl rfl
    · exact (emit_assembled env e).andPush rfl rfl
  | .concat l r _ => by
    rw [emit, uses]
    exact .binary rfl rfl (emit_assembled env l) (emit_assembled env r)
  | .logic op l r _ => by
    rw [emit, uses]
    cases op with
    | and => exact .keepOr ⟨fun _ => rfl, fun _ _ => rfl⟩ (emit_assembled env l) (emit_assembled env r)
    | or => exact .keepOr ⟨fun _ => rfl, fun _ _ => rfl⟩ (emit_assembled env l) (emit_assembled env r)
    | _ => exact .binary rfl rfl (emit_assembled env l) (emit_assembled env r)
  | .arith op l r _ => by
    rw [emit, uses]
    exact .binary rfl rfl (emit_assembled env l) (emit_assembled env r)
  | .decision op l r _ => by
    rw [emit, uses]
    exact .binary rfl rfl (emit_assembled env l) (emit_assembled env r)
  | .not e _ => by
    rw [emit, uses]
    exact (emit_assembled env e).andPush rfl rfl
  | .signed .plus e _ => by
    rw [emit, uses]
    exact emit_assembled env e
  | .signed .minus e _ => by
    rw [emit, uses]
    exact (emit_assembled env e).andPush rfl rfl
  | .assign scope members _ op value kind span => by
    rw [emit, uses]
    by_cases hmembers : members.isEmpty = true
    · rw [if_pos hmembers, if_pos hmembers]
      exact .fail _
    · rw [if_neg hmembers, if_neg hmembers]
      exact .binary rfl rfl (.afterPush rfl rfl (emitTarget_assembled env members)) (emit_assembled env value)
  | .conditional c l r _ => by
    rw [emit, uses]
    exact (emit_assembled env c).append ((emit_assembled env l).branch (emit_assembled env r))
  | .elvis scope members _ r _ => by
    rw [emit, uses]
    have hmembers : Emit.Assembled env (emitMembers env .getMemberOrNull members) (usesMembers env.settings members) :=
      emitMembers_assembled env rfl rfl members
    exact .keepOr ⟨fun _ => rfl, fun _ _ => rfl⟩ (.afterPush rfl rfl hmembers) (emit_assembled env r)

theorem emitMembers_assembled (env : Emit.Env) {get : Instr} (hjump : get.target? = none)
    (hkey : get.loadsKey = false) :
    ∀ members : List Expr, Emit.Assembled env (emitMembers env get members) (usesMembers env.settings members)
  | [] => by
    rw [emitMembers, usesMembers]
    exact .nothing
  | m :: ms => by
    rw [emitMembers, usesMembers]
    have hmember := (emit_assembled env m).memberKey env.settings.dotNotationUpperCase m
    exact (hmember.andPush hjump hkey).append (emitMembers_assembled env hjump hkey ms)

theorem emitTarget_assembled (env : Emit.Env) :
    ∀ members : List Expr, Emit.Assembled env (emitTarget env members) (usesMembers env.settings members)
  | [] => by
    rw [emitTarget, usesMembers]
    exact .nothing
  | [m] => by
    rw [emitTarget, usesMembers, usesMembers, Uses.append_nil]
    exact (emit_assembled env m).memberKey env.settings.dotNotationUpperCase m
  | m :: m' :: ms => by
    rw [emitTarget, usesMembers]
    have hmember := (emit_assembled env m).memberKey env.settings.dotNotationUpperCase m
    exact (hmember.andPush rfl rfl).append (emitTarget_assembled env (m' :: ms))

end

end Expr

/-! ## Calls that write code -/

namespace CodeUnit

/-- A call that writes code at the end of a unit. -/
inductive Call where
  | write (e : Expr)
  | writeKey (name : Expr) (upperCase : Bool)

namespace Call

def uses (settings : Settings) : Call → Uses
  | write e => e.uses settings
  | writeKey name upperCase => .ofMember upperCase name (name.uses settings)

def emitter (env : Emit.Env) : Call → Emit
  | write e => e.emit env
  | writeKey name upperCase => .memberKey env upperCase name (name.emit env)

theorem emitter_assembled (env : Emit.Env) (call : Call) :
    Emit.Assembled env (call.emitter env) (call.uses env.settings) := by
  cases call with
  | write e => exact e.emit_assembled env
  | writeKey name upperCase => exact (name.emit_assembled env).memberKey upperCase name

end Call

def perform (u : CodeUnit) : Call → Except Failure Unit × CodeUnit
  | .write e => u.write e
  | .writeKey name upperCase => u.writeKey name upperCase

/-- What a call appends. -/
def emission (u : CodeUnit) (call : Call) : Emission := (call.emitter u.env).run u.code.size u.keys

theorem perform_eq (u : CodeUnit) (call : Call) : u.perform call = ((u.emission call).outcome,
    { u with code := u.code ++ (u.emission call).code.toArray, keys := (u.emission call).keys }) := by
  cases call with
  | write e => exact u.write_eq_append e
  | writeKey name upperCase => exact u.writeKey_eq_append name upperCase

/-- Calls one after the other; one that fails leaves what it has written, and the next one goes on from there. -/
def performAll (u : CodeUnit) (calls : List Call) : CodeUnit := calls.foldl (fun u call => (u.perform call).2) u

end CodeUnit

end LooseExpr
