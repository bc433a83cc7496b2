import LooseExpr.Proofs.Code.Emit
/-!
# Jumps that are given their place later

A writer changes a unit step by step, and goes back to the jumps that it has written.  A jump is found again at the place
where it was written, whatever was written after it, and nothing else changes when it is given its place
(`CodeUnit.append_jumpOver`, `CodeUnit.append_branch`).  So a writer of code leaves all that was there, and appends what an
emitter yields (`Writer.Emits`): one rule for each way of putting writers together, and one case for each kind of
expression (`Expr.write_emits`).
-/
namespace LooseExpr

/-! ## Emitters on a unit -/

def Emission.outcome (r : Emission) : Except Failure Unit :=
  match r.failure with
  | none => .ok ()
  | some failure => .error failure

namespace Emission

variable {r : Emission}

theorem outcome_eq_ok_iff : r.outcome = .ok () ↔ r.failure = none := by
  unfold outcome
  cases r.failure <;> simp

theorem outcome_eq_error_iff {failure : Failure} : r.outcome = .error failure ↔ r.failure = some failure := by
  unfold outcome
  cases r.failure <;> simp

end Emission

namespace CodeUnit

variable {jump : Nat → Instr}

def env (u : CodeUnit) : Emit.Env := ⟨u.settings, u.name⟩

/-- The unit with what an emitter yields at its end. -/
def append (u : CodeUnit) (e : Emit) : Except Failure Unit × CodeUnit :=
  let r := e.run u.code.size u.keys
  (r.outcome, { u with code := u.code ++ r.code.toArray, keys := r.keys })

theorem size_append (u : CodeUnit) (e : Emit) :
    (u.append e).2.code.size = u.code.size + (e.run u.code.size u.keys).code.length := by
  simp [append]

/-- Goes on with a unit, unless there was a failure. -/
def thenOn (r : Except Failure Unit × CodeUnit) (next : CodeUnit → Except Failure Unit × CodeUnit) :
    Except Failure Unit × CodeUnit :=
  match r with
  | (.ok (), u) => next u
  | (.error failure, u) => (.error failure, u)

theorem thenOn_congr {r : Except Failure Unit × CodeUnit} {next next' : CodeUnit → Except Failure Unit × CodeUnit}
    (h : r.1 = .ok () → next r.2 = next' r.2) : thenOn r next = thenOn r next' := by
  obtain ⟨result, u⟩ := r
  cases result with
  | ok _ => exact h rfl
  | error failure => rfl

theorem append_andThen (u : CodeUnit) (a b : Emit) : u.append (a ++ b) = thenOn (u.append a) (append · b) := by
  unfold append
  cases h : (a.run u.code.size u.keys).failure with
  | some failure =>
    rw [Emit.run_append_of_some h]
    simp only [thenOn, Emission.outcome, h]
  | none =>
    rw [Emit.run_append_of_none h]
    simp [thenOn, Emission.outcome, h]

/-- **A jump is found again where it was written**, and nothing but its place changes. -/
theorem modify_jump (code : Array Instr) (jump : Instr) (rest : List Instr) (place : Nat) :
    (code.push jump ++ rest.toArray).modify code.size (Instr.retarget place) =
      code ++ (jump.retarget place :: rest).toArray := by
  refine Array.ext' ?_
  have hmodify := List.modify_eq_take_drop (Instr.retarget place) (code.toList ++ jump :: rest) code.size
  simpa using hmodify

theorem size_push_append (code : Array Instr) (i : Instr) (rest : List Instr) :
    (code.push i ++ rest.toArray).size = code.size + 1 + rest.length := by
  simp only [Array.size_append, Array.size_push, List.size_toArray]

/-- **A jump over what is appended** is appended without a place, and is given one afterwards. -/
theorem append_jumpOver (hjump : ∀ place place', (jump place).retarget place' = jump place') (u : CodeUnit)
    (e : Emit) : u.append (.jumpOver jump e) = thenOn ((u.push (jump Instr.unknownPlace)).append e) fun u' =>
      (.ok (), u'.patch u.code.size u'.code.size) := by
  unfold append Emit.jumpOver push patch
  simp only [Array.size_push]
  generalize e.run (u.code.size + 1) u.keys = inner
  obtain ⟨code, keys, failure⟩ := inner
  cases failure with
  | some failure => simp [thenOn, Emission.outcome]
  | none =>
    simp only [thenOn, Emission.outcome, modify_jump, hjump, size_push_append]
    rfl

/-- **A jump to the second way** is given its place when the first one is there, and then the jump over the second one
comes. -/
theorem append_branch (u : CodeUnit) (yes no : Emit) : u.append (.branch yes no) =
    thenOn ((u.push (.jumpIfFalse Instr.unknownPlace)).append yes) fun u' =>
      (u'.patch u.code.size (u'.code.size + 1)).append (.jumpOver .jump no) := by
  unfold append Emit.branch push patch
  simp only [Array.size_push]
  generalize yes.run (u.code.size + 1) u.keys = first
  obtain ⟨code, keys, failure⟩ := first
  cases failure with
  | some failure => simp [thenOn, Emission.outcome]
  | none =>
    have hsize : (u.code ++ (.jumpIfFalse (u.code.size + 1 + code.length + 1) :: code).toArray).size =
        u.code.size + 1 + code.length := by
      simp only [Array.size_append, List.size_toArray, List.length_cons]
      omega
    simp only [thenOn, Emission.outcome, modify_jump, size_push_append, Instr.retarget, hsize]
    simp

theorem size_push (u : CodeUnit) (i : Instr) : (u.push i).code.size = u.code.size + 1 := Array.size_push _

theorem size_patch (u : CodeUnit) (index place : Nat) : (u.patch index place).code.size = u.code.size := Array.size_modify

theorem patch_push (u : CodeUnit) (i : Instr) {index : Nat} (hindex : index < u.code.size) (place : Nat) :
    (u.push i).patch index place = (u.patch index place).push i := by
  have hcode : (u.code.push i).modify index (Instr.retarget place) = (u.code.modify index (Instr.retarget place)).push i := by
    refine Array.ext (by simp) fun j hj _ => ?_
    grind
  unfold push patch
  rw [hcode]

end CodeUnit

/-! ## Writers -/

namespace Writer

open CodeUnit (thenOn thenOn_congr)

theorem run_bind (x y : Writer Unit) (u : CodeUnit) : (x >>= fun _ => y).run u = thenOn (x.run u) y.run := by
  simp only [bind, ExceptT.bind, ExceptT.run, ExceptT.mk, StateT.bind, ExceptT.bindCont]
  rcases x u with ⟨result, u'⟩
  cases result <;> rfl

theorem run_jumpOver (jump : Nat → Instr) (body : Writer Unit) (u : CodeUnit) : (jumpOver jump body).run u =
    thenOn (body.run (u.push (jump Instr.unknownPlace))) fun u' => (.ok (), u'.patch u.code.size u'.code.size) :=
  run_bind body _ _

theorem run_branch (yes no : Writer Unit) (u : CodeUnit) : (branch yes no).run u =
    thenOn (yes.run (u.push (.jumpIfFalse Instr.unknownPlace))) fun u' =>
      thenOn (no.run ((u'.push (.jump Instr.unknownPlace)).patch u.code.size (u'.push (.jump Instr.unknownPlace)).code.size))
        fun u'' => (.ok (), u''.patch u'.code.size u''.code.size) := by
  refine (run_bind yes _ _).trans (thenOn_congr fun _ => ?_)
  exact run_bind no _ _

/-- **The writer appends what the emitter yields**, to every unit of these settings and this name. -/
def Emits (env : Emit.Env) (w : Writer Unit) (e : Emit) : Prop := ∀ u : CodeUnit, u.env = env → w.run u = u.append e

namespace Emits

variable {env : Emit.Env} {v w : Writer Unit} {a b : Emit}

theorem nothing : Emits env (pure ()) .nothing := by
  intro u _
  show (_, u) = u.append _
  simp [CodeUnit.append, Emit.nothing, Emission.outcome]

theorem push (i : Instr) : Emits env (Writer.push i) (.push i) := by
  intro u _
  show (_, u.push i) = u.append _
  simp [CodeUnit.append, Emit.push, Emission.outcome, CodeUnit.push]

theorem fail (failure : Failure) : Emits env (throw failure) (.fail failure) := by
  intro u _
  show (_, u) = u.append _
  simp [CodeUnit.append, Emit.fail, Emission.outcome]

theorem andThen (hv : Emits env v a) (hw : Emits env w b) : Emits env (v >>= fun _ => w) (a ++ b) := by
  intro u hu
  rw [run_bind, hv u hu, u.append_andThen]
  exact thenOn_congr fun _ => hw _ hu

theorem jumpOver {jump : Nat → Instr} (hjump : ∀ place place', (jump place).retarget place' = jump place')
    (hw : Emits env w b) : Emits env (Writer.jumpOver jump w) (.jumpOver jump b) := by
  intro u hu
  rw [run_jumpOver, hw (u.push _) hu, u.append_jumpOver hjump]

theorem branch (hv : Emits env v a) (hw : Emits env w b) : Emits env (Writer.branch v w) (.branch a b) := by
  intro u hu
  rw [run_branch, hv (u.push _) hu, u.append_branch]
  refine thenOn_congr fun _ => ?_
  generalize hfirst : ((u.push (.jumpIfFalse Instr.unknownPlace)).append a).2 = u'
  have henv : u'.env = env := by
    rw [← hfirst, ← hu]
    rfl
  have hsize : u.code.size < u'.code.size := by
    rw [← hfirst]
    simp only [CodeUnit.append, CodeUnit.push, CodeUnit.size_push_append]
    omega
  -- the jump to the second way is given its place after the jump over it was written, which makes no difference
  rw [u'.patch_push _ hsize, hw ((u'.patch _ _).push _) henv, (u'.patch _ _).append_jumpOver fun _ _ => rfl, u'.size_patch,
    u'.size_push]

theorem key (name : String) : Emits env (Writer.key name) (.key env name) := by
  unfold Writer.key Emit.key
  cases Key.fieldName? name with
  | some field => exact push _
  | none =>
    intro u hu
    have hname : u.name = env.unit := congrArg Emit.Env.unit hu
    show (_, ({ u with keys := (u.keys.register name).2 } : CodeUnit).push (.loadKey u.name (u.keys.register name).1)) = _
    simp [CodeUnit.append, Emission.outcome, CodeUnit.push, hname]

theorem memberKey (upperCase : Bool) (name : Expr) (hw : Emits env w b) :
    Emits env (Writer.memberKey upperCase name w) (.memberKey env upperCase name b) := by
  unfold Writer.memberKey Emit.memberKey
  cases name.stripTextCasts with
  | literal lit =>
    simp only
    cases (if upperCase then lit.upperCased else lit).value.text? with
    | some text => exact key text
    | none => exact fail _
  | _ => exact hw.andThen (push _)

/-- The writer looks at the settings for the case of names. -/
theorem ofUpperCase {f : Bool → Writer Unit} (h : Emits env (f env.settings.dotNotationUpperCase) a) :
    Emits env (Writer.upperCase >>= f) a := by
  rintro u rfl
  exact h u rfl

end Emits

end Writer

open Writer (Emits)

theorem BoolOp.retarget_of_jump? {op : BoolOp} {jump : Nat → Instr} (h : op.jump? = some jump) (place place' : Nat) :
    (jump place).retarget place' = jump place' := by
  cases op <;> cases h <;> rfl

theorem Constant.write_emits (env : Emit.Env) (c : Constant) : Emits env c.write (c.emit env) := by
  cases c with
  | nullWord =>
    rintro u rfl
    show (if u.settings.nullSupport then Writer.push .pushNull else _ : Writer Unit).run u = _
    unfold emit CodeUnit.env
    simp only
    split
    · exact Emits.push _ u rfl
    · rw [Emit.append_assoc]
      exact ((Emits.push _).andThen ((Emits.key "null").andThen (.push _))) u rfl
  | _ => exact .push _

namespace Expr

mutual

/-- **Writing an expression appends what its emitter yields.** -/
theorem write_emits (env : Emit.Env) : ∀ e : Expr, Emits env e.write (e.emit env)
  | .literal lit => by
    rw [write, emit]
    exact lit.value.write_emits env
  | .newStruct => by
    rw [write, emit]
    exact .push _
  | .newArray => by
    rw [write, emit]
    exact .push _
  | .var scope members _ => by
    rw [write, emit]
    exact (Emits.push _).andThen (writeMembers_emits env .getMember members)
  | .cast e target _ => by
    rw [write, emit]
    cases (if target.staticType = .string then e.literalText? else none) with
    | some text => exact .push _
    | none => exact (write_emits env e).andThen (.push _)
  | .concat l r _ => by
    rw [write, emit, Emit.append_assoc]
    exact (write_emits env l).andThen ((write_emits env r).andThen (.push _))
  | .logic op l r _ => by
    rw [write, emit]
    cases hjump : op.jump? with
    | some jump =>
      have hright := (Emits.push .pop).andThen (write_emits env r)
      simp only [Emit.append_assoc]
      exact (write_emits env l).andThen ((Emits.push _).andThen (.jumpOver (BoolOp.retarget_of_jump? hjump) hright))
    | none =>
      simp only [Emit.append_assoc]
      exact (write_emits env l).andThen ((write_emits env r).andThen (.push _))
  | .arith op l r _ => by
    rw [write, emit, Emit.append_assoc]
    exact (write_emits env l).andThen ((write_emits env r).andThen (.push _))
  | .decision op l r _ => by
    rw [write, emit, Emit.append_assoc]
    exact (write_emits env l).andThen ((write_emits env r).andThen (.push _))
  | .not e _ => by
    rw [write, emit]
    exact (write_emits env e).andThen (.push _)
  | .signed .plus e _ => by
    rw [write, emit]
    exact write_emits env e
  | .signed .minus e _ => by
    rw [write, emit]
    exact (write_emits env e).andThen (.push _)
  | .assign scope members _ op value kind span => by
    rw [write, emit]
    split
    · exact .fail _
    · rw [Emit.append_assoc, Emit.append_assoc]
      exact (Emits.push _).andThen
        ((writeTarget_emits env members).andThen ((write_emits env value).andThen (.push _)))
  | .conditional c l r _ => by
    rw [write, emit]
    exact (write_emits env c).andThen (.branch (write_emits env l) (write_emits env r))
  | .elvis scope members _ r _ => by
    rw [write, emit, Emit.append_assoc, Emit.append_assoc]
    have hright := (Emits.push .pop).andThen (write_emits env r)
    exact (Emits.push _).andThen ((writeMembers_emits env .getMemberOrNull members).andThen
      ((Emits.push _).andThen (.jumpOver (fun _ _ => rfl) hright)))

theorem writeMembers_emits (env : Emit.Env) (get : Instr) :
    ∀ members : List Expr, Emits env (writeMembers get members) (emitMembers env get members)
  | [] => by
    rw [writeMembers, emitMembers]
    exact .nothing
  | m :: ms => by
    rw [writeMembers, emitMembers, Emit.append_assoc]
    exact .ofUpperCase (((write_emits env m).memberKey _ m).andThen
      ((Emits.push _).andThen (writeMembers_emits env get ms)))

theorem writeTarget_emits (env : Emit.Env) :
    ∀ members : List Expr, Emits env (writeTarget members) (emitTarget env members)
  | [] => by
    rw [writeTarget, emitTarget]
    exact .nothing
  | [m] => by
    rw [writeTarget, emitTarget]
    exact .ofUpperCase ((write_emits env m).memberKey _ m)
  | m :: m' :: ms => by
    rw [writeTarget, emitTarget, Emit.append_assoc]
    exact .ofUpperCase (((write_emits env m).memberKey _ m).andThen
      ((Emits.push _).andThen (writeTarget_emits env (m' :: ms))))

end

end Expr

namespace CodeUnit

theorem write_eq_append (u : CodeUnit) (e : Expr) : u.write e = u.append (e.emit u.env) := e.write_emits u.env u rfl

theorem writeKey_eq_append (u : CodeUnit) (name : Expr) (upperCase : Bool) :
    u.writeKey name upperCase = u.append (.memberKey u.env upperCase name (name.emit u.env)) :=
  (name.write_emits u.env).memberKey upperCase name u rfl

end CodeUnit

end LooseExpr
