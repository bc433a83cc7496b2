import LooseExpr.Code.Instr
import LooseExpr.Proofs.Eval
/-!
# A stack machine

What the instructions do that need no variables.  An instruction works on a stack, whose top comes first, in a session.
A run begins at a place of the code and goes on until it is past the end, or until an instruction ends in a fault.  It
has no ending if an instruction is reached that is not known here, or that finds too little on the stack; there is never
more than one (`Runs.unique`).

`Carries` says of a stretch of code that it does what a computation does: with a value it goes on behind the stretch,
the value on the stack; with a fault the run ends there.
-/
namespace LooseExpr

namespace Instr

/-- What an instruction pushes, and what it leaves below. -/
def result? : Instr → List Value → Option (Eval Value × List Value)
  | pushStr s, stack => some (return .text s, stack)
  | pushBool b, stack => some (return .bool b, stack)
  | pushNumber text, stack => (Decimal.ofText? text).map fun d => (return .number d, stack)
  | pushInt n, stack => some (return .ofInt n.toInt, stack)
  | pushLong n, stack => some (return .ofInt n.toInt, stack)
  | pushNull, stack => some (return .null, stack)
  | pushEmpty, stack => some (return .text "", stack)
  | newStruct, stack => some (do return .struct (← Eval.newStruct), stack)
  | newArray, stack => some (do return .array (← Eval.newArray), stack)
  | cast target, v :: stack => some (Eval.lift (target.apply v), stack)
  | concat, r :: l :: stack => some (do return .text ((← Eval.lift l.toText) ++ (← Eval.lift r.toText)), stack)
  | arith op, r :: l :: stack =>
    some (do
      let left ← Eval.lift l.toDecimal
      let right ← Eval.lift r.toDecimal
      return .text (← Eval.compute op left right).toText, stack)
  | compare op, r :: l :: stack => some (do return .bool (← Eval.lift (op.decide l r)), stack)
  | logic op, r :: l :: stack =>
    some (do
      let left ← Eval.lift l.toBoolean
      let right ← Eval.lift r.toBoolean
      return .bool (op.apply left right), stack)
  | not, v :: stack => some (do return .bool (!(← Eval.lift v.toBoolean)), stack)
  | neg, v :: stack => some (do return .number (-(← Eval.lift v.toDecimal)), stack)
  | dup, v :: stack => some (return v, v :: stack)
  | _, _ => none

/-- **One step**: the place to go on at and the stack there. -/
def step (place : Nat) : Instr → List Value → Option (Eval (Nat × List Value))
  | pop, _ :: stack => some (return (place + 1, stack))
  | jump target, stack => some (return (target, stack))
  | jumpIfFalse target, v :: stack =>
    some (do return (if ← Eval.lift v.toBoolean then place + 1 else target, stack))
  | jumpIfTrue target, v :: stack =>
    some (do return (if !(← Eval.lift v.toBoolean) then place + 1 else target, stack))
  | jumpIfNotNull target, v :: stack => some (return (if v.isNull then place + 1 else target, stack))
  | i, stack => (i.result? stack).map fun (value, below) => do return (place + 1, (← value) :: below)

theorem step_dup (place : Nat) (v : Value) (stack : List Value) :
    dup.step place (v :: stack) = some (return (place + 1, v :: v :: stack)) := rfl

theorem step_pushNumber {text : String} {d : Decimal} (h : Decimal.ofText? text = some d) (place : Nat)
    (stack : List Value) : (pushNumber text).step place stack =
      some (do return (place + 1, (← (return .number d : Eval Value)) :: stack)) := by
  have hresult : (pushNumber text).result? stack = some (return .number d, stack) := by
    show (Decimal.ofText? text).map _ = _
    rw [h, Option.map_some]
  show ((pushNumber text).result? stack).map _ = _
  rw [hresult]
  rfl

end Instr

/-- **A run of the code** from a place, a stack and a session to what is left on the stack, or a fault, and the session
then. -/
inductive Runs (code : Array Instr) : Nat → List Value → Session → Except Fault (List Value) → Session → Prop
  | stop (stack : List Value) (s : Session) : Runs code code.size stack s (.ok stack) s
  | next {place place' : Nat} {stack stack' : List Value} {s s' t : Session} {i : Instr} {x : Eval (Nat × List Value)}
      {ending : Except Fault (List Value)} (hi : code[place]? = some i) (hstep : i.step place stack = some x)
      (hrun : x.run s = (.ok (place', stack'), s')) (hrest : Runs code place' stack' s' ending t) :
      Runs code place stack s ending t
  | fault {place : Nat} {stack : List Value} {s t : Session} {i : Instr} {x : Eval (Nat × List Value)} {f : Fault}
      (hi : code[place]? = some i) (hstep : i.step place stack = some x) (hrun : x.run s = (.error f, t)) :
      Runs code place stack s (.error f) t

namespace Runs

variable {code : Array Instr}

theorem not_getElem?_size {i : Instr} (h : code[code.size]? = some i) : False := by
  rw [Array.getElem?_eq_none (Nat.le_refl _)] at h
  cases h

/-- **A run has one ending.** -/
theorem unique {place : Nat} {stack : List Value} {s t t' : Session} {ending ending' : Except Fault (List Value)}
    (h : Runs code place stack s ending t) (h' : Runs code place stack s ending' t') : ending' = ending ∧ t' = t := by
  induction h with
  | stop stack s =>
    cases h' with
    | stop => exact ⟨rfl, rfl⟩
    | next hi => exact (not_getElem?_size hi).elim
    | fault hi => exact (not_getElem?_size hi).elim
  | next hi hstep hrun _ ih =>
    cases h' with
    | stop => exact (not_getElem?_size hi).elim
    | next hi' hstep' hrun' hrest' =>
      cases hi.symm.trans hi'
      cases hstep.symm.trans hstep'
      cases hrun.symm.trans hrun'
      exact ih hrest'
    | fault hi' hstep' hrun' =>
      cases hi.symm.trans hi'
      cases hstep.symm.trans hstep'
      cases hrun.symm.trans hrun'
  | fault hi hstep hrun =>
    cases h' with
    | stop => exact (not_getElem?_size hi).elim
    | next hi' hstep' hrun' _ =>
      cases hi.symm.trans hi'
      cases hstep.symm.trans hstep'
      cases hrun.symm.trans hrun'
    | fault hi' hstep' hrun' =>
      cases hi.symm.trans hi'
      cases hstep.symm.trans hstep'
      cases hrun.symm.trans hrun'
      exact ⟨rfl, rfl⟩

end Runs

/-! ## Stretches of code -/

/-- The part stands in the code, from a place on. -/
def CodeAt (code : Array Instr) (place : Nat) (part : List Instr) : Prop :=
  ∀ (n : Nat) (i : Instr), part[n]? = some i → code[place + n]? = some i

namespace CodeAt

variable {code : Array Instr} {place : Nat} {first second : List Instr} {i : Instr}

theorem left (h : CodeAt code place (first ++ second)) : CodeAt code place first := by
  intro n i hi
  have hn : n < first.length := (List.getElem?_eq_some_iff.1 hi).1
  exact h n i (by rw [List.getElem?_append_left hn, hi])

theorem right (h : CodeAt code place (first ++ second)) : CodeAt code (place + first.length) second := by
  intro n i hi
  rw [Nat.add_assoc]
  refine h (first.length + n) i ?_
  rw [List.getElem?_append_right (Nat.le_add_right _ _), Nat.add_sub_cancel_left, hi]

theorem head (h : CodeAt code place (i :: second)) : code[place]? = some i := h 0 i rfl

theorem tail (h : CodeAt code place (i :: second)) : CodeAt code (place + 1) second := by
  have happend : CodeAt code place ([i] ++ second) := h
  exact happend.right

end CodeAt

/-- **The code from a place to another does what the computation does**: its value comes on top of what is below. -/
def Carries (code : Array Instr) (place : Nat) (stack : List Value) (stop : Nat) (below : List Value) (s : Session)
    (x : Eval Value) : Prop :=
  match x.run s with
  | (.ok v, s') => ∀ ending t, Runs code stop (v :: below) s' ending t → Runs code place stack s ending t
  | (.error f, s') => Runs code place stack s (.error f) s'

namespace Carries

variable {code : Array Instr} {place middle stop : Nat} {stack below below' : List Value} {s s' : Session}
  {x y : Eval Value} {f : Value → Eval Value} {v : Value} {i : Instr}

theorem congr (h : Carries code place stack stop below s x) (hxy : x.run s = y.run s) :
    Carries code place stack stop below s y := by
  unfold Carries at h ⊢
  rwa [← hxy]

/-- A value that is there already. -/
theorem pure : Carries code place (v :: below) place below s (Pure.pure v) := fun _ _ h => h

/-- An instruction that pushes what it computes. -/
theorem single (hi : code[place]? = some i)
    (hstep : i.step place stack = some (do return (place + 1, (← x) :: below))) :
    Carries code place stack (place + 1) below s x := by
  unfold Carries
  rcases hx : x.run s with ⟨result, s'⟩
  cases result with
  | ok v =>
    intro ending t hrest
    refine .next hi hstep ?_ hrest
    rw [Eval.run_bind_of_ok hx]
    rfl
  | error f => exact .fault hi hstep (Eval.run_bind_of_error hx _)

/-- **One stretch after the other.** -/
theorem bind (hx : Carries code place stack middle below' s x)
    (hf : ∀ v s', x.run s = (.ok v, s') → Carries code middle (v :: below') stop below s' (f v)) :
    Carries code place stack stop below s (x >>= f) := by
  unfold Carries at hx ⊢
  rw [Eval.run_bind]
  rcases hrun : x.run s with ⟨result, s'⟩
  rw [hrun] at hx
  cases result with
  | error f => exact hx
  | ok v =>
    have hv := hf v s' hrun
    unfold Carries at hv
    rcases hrest : (f v).run s' with ⟨result, s''⟩
    simp only [hrest] at hv ⊢
    cases result with
    | ok w => exact fun ending t h => hx ending t (hv ending t h)
    | error f => exact hx _ _ hv

/-- A step that pushes nothing, and goes on at once. -/
theorem silent {place' : Nat} {stack' : List Value} (hi : code[place]? = some i)
    (hstep : i.step place stack = some (return (place', stack')))
    (h : Carries code place' stack' stop below s x) : Carries code place stack stop below s x := by
  unfold Carries at h ⊢
  rcases hx : x.run s with ⟨result, s'⟩
  simp only [hx] at h ⊢
  cases result with
  | ok v => exact fun ending t hrest => .next hi hstep rfl (h ending t hrest)
  | error f => exact .next hi hstep rfl h

theorem thenJump (h : Carries code place stack middle below s x) (hi : code[middle]? = some (.jump stop)) :
    Carries code place stack stop below s x := by
  unfold Carries at h ⊢
  rcases hx : x.run s with ⟨result, s'⟩
  simp only [hx] at h ⊢
  cases result with
  | ok v => exact fun ending t hrest => h ending t (.next hi rfl rfl hrest)
  | error f => exact h

/-- **A jump that asks for a truth value** goes on at the next place or elsewhere. -/
theorem decide {target : Nat} {goesOn : Bool → Bool} {choose : Bool → Eval Value} (hi : code[place]? = some i)
    (hstep : i.step place (v :: stack) =
      some (do return (if goesOn (← Eval.lift v.toBoolean) then place + 1 else target, stack)))
    (h : ∀ b, Carries code (if goesOn b then place + 1 else target) stack stop below s (choose b)) :
    Carries code place (v :: stack) stop below s (Eval.lift v.toBoolean >>= choose) := by
  cases hb : v.toBoolean with
  | error f =>
    rw [hb] at hstep
    exact .fault hi hstep rfl
  | ok b =>
    rw [hb] at hstep
    have hrun : (Eval.lift (.ok b) >>= choose).run s = (choose b).run s := Eval.run_lift_ok_bind b choose s
    refine congr ?_ hrun.symm
    exact silent hi hstep (h b)

end Carries

end LooseExpr
