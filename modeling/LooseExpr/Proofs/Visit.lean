import LooseExpr.Proofs.Eval
import Mathlib.Logic.Relation
/-!
# Visits

To resolve a reference is to resolve other references on the way, in an order and in sessions that depend on how the
earlier ones came out.  A visit is a reference about to be resolved; `Visit.Enters` says which visits it makes by itself,
and `Visit.Reaches` which are made in the course of it, at any depth.

Two things are shown of one step, and from them, by induction, of all that is reached.  No reference catches a fault: if
a visit fails, so does the one that entered it, with the same fault in the same session (`Visit.Enters.run_error`).  And
whatever the visits that are entered keep, and the reference by itself, is kept by the visit as a whole
(`Visit.within_of_entered`); so what happens in a run happens in a visit that it reaches.
-/
namespace LooseExpr

namespace Ref

/-- A reference to a calculation: an arithmetic operator, or an assignment with one. -/
def isArithmetic : Ref → Bool
  | arith .. => true
  | assign _ _ (some _) _ _ => true
  | _ => false

/-- What an assignment does once it is allowed. -/
def carryOut (scope : Scope) (members : List Ref) (op : Option NumberOp) (value : Ref) (kind : AssignKind) :
    Eval Value := do
  let keys ← Ref.keys members
  let current ← Eval.readDefined scope keys
  let operand ← value.resolve false
  let (before, after) ← Eval.combine op current operand
  Eval.writePath scope keys after
  return kind.choose before after

theorem resolve_assign_some (scope : Scope) (members : List Ref) (op : NumberOp) (value : Ref) (kind : AssignKind)
    (lenient : Bool) :
    (assign scope members (some op) value kind).resolve lenient = (do
      Eval.ensureUnrestricted
      carryOut scope members (some op) value kind) := by
  rw [resolve]
  rfl

theorem resolve_assign_none (scope : Scope) (members : List Ref) (value : Ref) (kind : AssignKind) (lenient : Bool) :
    (assign scope members none value kind).resolve lenient = carryOut scope members none value kind := by
  rw [resolve]
  rfl

end Ref

structure Visit where
  ref : Ref
  lenient : Bool
  session : Session

namespace Visit

def run (v : Visit) : Except Fault Value × Session := (v.ref.resolve v.lenient).run v.session

/-- The restriction stops the visit before it does anything. -/
def Stopped (v : Visit) : Prop := v.ref.isArithmetic = true ∧ v.session.limited = true

/-- **The visits that a visit makes by itself.**  Operands come from left to right, and each only after the ones before
it had a value that could be used. -/
inductive Enters : Visit → Visit → Prop where
  | varName {scope before m after lenient s keys t} :
      (Ref.keys before).run s = (.ok keys, t) → Enters ⟨.var scope (before ++ m :: after), lenient, s⟩ ⟨m, false, t⟩
  | varOrNullName {scope before m after lenient s keys t} :
      (Ref.keys before).run s = (.ok keys, t) →
      Enters ⟨.varOrNull scope (before ++ m :: after), lenient, s⟩ ⟨m, false, t⟩
  | concatLeft {l r lenient s} : Enters ⟨.concat l r, lenient, s⟩ ⟨l, false, s⟩
  | concatRight {l r lenient s v text t} :
      (l.resolve false).run s = (.ok v, t) → v.toText = .ok text → Enters ⟨.concat l r, lenient, s⟩ ⟨r, false, t⟩
  | not {e lenient s} : Enters ⟨.not e, lenient, s⟩ ⟨e, false, s⟩
  | signed {op e lenient s} : Enters ⟨.signed op e, lenient, s⟩ ⟨e, false, s⟩
  | decisionLeft {op l r lenient s} : Enters ⟨.decision op l r, lenient, s⟩ ⟨l, false, s⟩
  | decisionRight {op l r lenient s v t} :
      (l.resolve false).run s = (.ok v, t) → Enters ⟨.decision op l r, lenient, s⟩ ⟨r, false, t⟩
  | logicLeft {op l r lenient s} : Enters ⟨.logic op l r, lenient, s⟩ ⟨l, false, s⟩
  | logicRight {op l r lenient s v b t} :
      (l.resolve false).run s = (.ok v, t) → v.toBoolean = .ok b → op.shortCircuit? b = none →
      Enters ⟨.logic op l r, lenient, s⟩ ⟨r, false, t⟩
  | arithLeft {op l r lenient s} : s.limited = false → Enters ⟨.arith op l r, lenient, s⟩ ⟨l, false, s⟩
  | arithRight {op l r lenient s v d t} :
      s.limited = false → (l.resolve false).run s = (.ok v, t) → v.toDecimal = .ok d →
      Enters ⟨.arith op l r, lenient, s⟩ ⟨r, false, t⟩
  | condition {c l r lenient s} : Enters ⟨.conditional c l r, lenient, s⟩ ⟨c, false, s⟩
  | branch {c l r lenient s v b t} :
      (c.resolve false).run s = (.ok v, t) → v.toBoolean = .ok b →
      Enters ⟨.conditional c l r, lenient, s⟩ ⟨if b then l else r, false, t⟩
  | elvisLeft {l r lenient s} : Enters ⟨.elvis l r, lenient, s⟩ ⟨l, true, s⟩
  | elvisRight {l r lenient s v t} :
      (l.resolve true).run s = (.ok v, t) → v.isNull = true → Enters ⟨.elvis l r, lenient, s⟩ ⟨r, false, t⟩
  | assignName {scope before m after op value kind lenient s keys t} :
      (op.isSome = true → s.limited = false) → (Ref.keys before).run s = (.ok keys, t) →
      Enters ⟨.assign scope (before ++ m :: after) op value kind, lenient, s⟩ ⟨m, false, t⟩
  | assignValue {scope members op value kind lenient s keys t current u} :
      (op.isSome = true → s.limited = false) → (Ref.keys members).run s = (.ok keys, t) →
      (Eval.readDefined scope keys).run t = (.ok current, u) →
      Enters ⟨.assign scope members op value kind, lenient, s⟩ ⟨value, false, u⟩
  | cast {e target lenient s} : Enters ⟨.cast e target, lenient, s⟩ ⟨e, false, s⟩
  | marked {text e lenient s} :
      Enters ⟨.marked text e, lenient, s⟩
        ⟨e, lenient, { s with marks := s.marks ++ [if lenient then text ++ "?" else text] }⟩

/-- **What a visit writes by itself**: an assignment that is allowed, and for which all that the new value depends on is
there, writes that value in the session that it has come to by then. -/
inductive Writes : Visit → Scope → List Key → Value → Session → Prop where
  | assign {scope members op value kind lenient s keys t current u operand w both x} :
      (op.isSome = true → s.limited = false) → (Ref.keys members).run s = (.ok keys, t) →
      (Eval.readDefined scope keys).run t = (.ok current, u) → (value.resolve false).run u = (.ok operand, w) →
      (Eval.combine op current operand).run w = (.ok both, x) →
      Writes ⟨.assign scope members op value kind, lenient, s⟩ scope keys both.2 x

/-- The visits made in the course of a visit, itself included. -/
def Reaches : Visit → Visit → Prop := Relation.ReflTransGen Enters

theorem Enters.sizeOf_lt {v c : Visit} (h : Enters v c) : sizeOf c.ref < sizeOf v.ref := by
  have hmember : ∀ (before after : List Ref) (m : Ref), sizeOf m < sizeOf (before ++ m :: after) :=
    fun before after m => List.sizeOf_lt_of_mem (by simp)
  cases h with
  | @varName scope before m after =>
    have := hmember before after m
    simp
    omega
  | @varOrNullName scope before m after =>
    have := hmember before after m
    simp
    omega
  | @assignName scope before m after =>
    have := hmember before after m
    simp
    omega
  | @branch c l r lenient s v b =>
    simp only [Ref.conditional.sizeOf_spec]
    split
    · omega
    · omega
  | _ => simp <;> omega

/-! ## Faults are not caught -/

theorem keys_append_error {before after : List Ref} {m : Ref} {s t u : Session} {keys : List Key} {fault : Fault}
    (hbefore : (Ref.keys before).run s = (.ok keys, t)) (hm : (m.resolve false).run t = (.error fault, u)) :
    (Ref.keys (before ++ m :: after)).run s = (.error fault, u) := by
  induction before generalizing s keys with
  | nil =>
    rw [Ref.keys] at hbefore
    cases hbefore
    rw [List.nil_append, Ref.keys]
    exact Eval.run_bind_of_error hm _
  | cons first before ih =>
    rw [Ref.keys] at hbefore
    obtain ⟨v, s', hfirst, hbefore⟩ := Eval.ok_of_run_bind hbefore
    obtain ⟨key, hkey, hbefore⟩ := Eval.ok_of_run_lift_bind hbefore
    obtain ⟨keys', t', hbefore, hdone⟩ := Eval.ok_of_run_bind hbefore
    cases hdone
    rw [List.cons_append, Ref.keys, Eval.run_bind_of_ok hfirst, hkey, Eval.run_lift_ok_bind]
    exact Eval.run_bind_of_error (ih hbefore) _

theorem run_assign {scope : Scope} {members : List Ref} {op : Option NumberOp} {value : Ref} {kind : AssignKind}
    {lenient : Bool} {s : Session} (h : op.isSome = true → s.limited = false) :
    ((Ref.assign scope members op value kind).resolve lenient).run s =
      (Ref.carryOut scope members op value kind).run s := by
  cases op with
  | none => rw [Ref.resolve_assign_none]
  | some op => rw [Ref.resolve_assign_some, Eval.run_bind_of_ok (Eval.run_ensureUnrestricted (h rfl))]

/-- **The fault of a visit is the fault of the one that entered it**, and the session stays as it was then. -/
theorem Enters.run_error {v c : Visit} {fault : Fault} {t : Session} (h : Enters v c) (hc : c.run = (.error fault, t)) :
    v.run = (.error fault, t) := by
  unfold run at hc ⊢
  cases h with
  | varName hkeys =>
    rw [Ref.resolve]
    exact Eval.run_bind_of_error (keys_append_error hkeys hc) _
  | varOrNullName hkeys =>
    rw [Ref.resolve]
    exact Eval.run_bind_of_error (keys_append_error hkeys hc) _
  | concatLeft =>
    rw [Ref.resolve]
    exact Eval.run_bind_of_error hc _
  | concatRight hl htext =>
    rw [Ref.resolve, Eval.run_bind_of_ok hl, htext, Eval.run_lift_ok_bind]
    exact Eval.run_bind_of_error hc _
  | not =>
    rw [Ref.resolve]
    exact Eval.run_bind_of_error hc _
  | signed =>
    rw [Ref.resolve]
    exact Eval.run_bind_of_error hc _
  | decisionLeft =>
    rw [Ref.resolve]
    exact Eval.run_bind_of_error hc _
  | decisionRight hl =>
    rw [Ref.resolve, Eval.run_bind_of_ok hl]
    exact Eval.run_bind_of_error hc _
  | logicLeft =>
    rw [Ref.resolve]
    exact Eval.run_bind_of_error hc _
  | logicRight hl hbool hboth =>
    rw [Ref.resolve, Eval.run_bind_of_ok hl, hbool, Eval.run_lift_ok_bind, hboth]
    exact Eval.run_bind_of_error hc _
  | arithLeft hfree =>
    rw [Ref.resolve, Eval.run_bind_of_ok (Eval.run_ensureUnrestricted hfree)]
    exact Eval.run_bind_of_error hc _
  | arithRight hfree hl hdecimal =>
    rw [Ref.resolve, Eval.run_bind_of_ok (Eval.run_ensureUnrestricted hfree), Eval.run_bind_of_ok hl, hdecimal,
      Eval.run_lift_ok_bind]
    exact Eval.run_bind_of_error hc _
  | condition =>
    rw [Ref.resolve]
    exact Eval.run_bind_of_error hc _
  | @branch c l r lenient s v b t hcond hbool =>
    rw [Ref.resolve, Eval.run_bind_of_ok hcond, hbool, Eval.run_lift_ok_bind]
    cases b <;> exact hc
  | elvisLeft =>
    rw [Ref.resolve]
    exact Eval.run_bind_of_error hc _
  | elvisRight hl hnull =>
    rw [Ref.resolve, Eval.run_bind_of_ok hl, if_pos hnull]
    exact hc
  | assignName hfree hkeys =>
    rw [run_assign hfree]
    exact Eval.run_bind_of_error (keys_append_error hkeys hc) _
  | assignValue hfree hkeys hcurrent =>
    rw [run_assign hfree, Ref.carryOut, Eval.run_bind_of_ok hkeys, Eval.run_bind_of_ok hcurrent]
    exact Eval.run_bind_of_error hc _
  | cast =>
    rw [Ref.resolve]
    exact Eval.run_bind_of_error hc _
  | marked =>
    rw [Ref.resolve]
    exact hc

theorem Reaches.run_error {v c : Visit} {fault : Fault} {t : Session} (h : Reaches v c)
    (hc : c.run = (.error fault, t)) : v.run = (.error fault, t) := by
  induction h using Relation.ReflTransGen.head_induction_on with
  | refl => exact hc
  | head hstep _ ih => exact hstep.run_error ih

/-! ## What visits keep -/

section

variable {R : Session → Session → Prop} {G : Session → Prop}

def Within (R : Session → Session → Prop) (G : Session → Prop) (v : Visit) : Prop :=
  Eval.Within R G (v.ref.resolve v.lenient) v.session

theorem keys_within (hR : Eval.ReadFrame R) : ∀ (members : List Ref) (s : Session),
    (∀ before m after keys t, members = before ++ m :: after → (Ref.keys before).run s = (.ok keys, t) →
      Eval.Within R G (m.resolve false) t) → Eval.Within R G (Ref.keys members) s
  | [], s, _ => by
    rw [Ref.keys]
    exact hR.pure _
  | m :: members, s, h => by
    have hnil : (Ref.keys []).run s = (.ok [], s) := by rw [Ref.keys]; rfl
    rw [Ref.keys]
    refine hR.bind (h [] m members [] s rfl hnil) (fun v t hm => ?_)
    refine hR.bind_lift v.toKey_ne_restricted (fun key hkey => ?_)
    refine hR.bind (keys_within hR members t (fun before m' after keys u hsplit hbefore => ?_)) (fun _ _ _ => hR.pure _)
    refine h (m :: before) m' after (key :: keys) u (by rw [hsplit]; rfl) ?_
    rw [Ref.keys, Eval.run_bind_of_ok hm, hkey, Eval.run_lift_ok_bind, Eval.run_bind_of_ok hbefore]
    rfl

theorem carryOut_within (hR : Eval.ReadFrame R) {scope : Scope} {members : List Ref} {op : Option NumberOp} {value : Ref}
    {kind : AssignKind} {s : Session}
    (hwrite : ∀ keys t current u operand w both x, (Ref.keys members).run s = (.ok keys, t) →
      (Eval.readDefined scope keys).run t = (.ok current, u) → (value.resolve false).run u = (.ok operand, w) →
      (Eval.combine op current operand).run w = (.ok both, x) → Eval.Within R G (Eval.writePath scope keys both.2) x)
    (hnames : ∀ before m after keys t, members = before ++ m :: after → (Ref.keys before).run s = (.ok keys, t) →
      Eval.Within R G (m.resolve false) t)
    (hvalue : ∀ keys t current u, (Ref.keys members).run s = (.ok keys, t) →
      (Eval.readDefined scope keys).run t = (.ok current, u) → Eval.Within R G (value.resolve false) u) :
    Eval.Within R G (Ref.carryOut scope members op value kind) s := by
  refine hR.bind (keys_within hR members s hnames) (fun keys t hkeys => ?_)
  refine hR.bind (hR.readDefined scope keys) (fun current u hcurrent => ?_)
  refine hR.bind (hvalue keys t current u hkeys hcurrent) (fun operand w hoperand => ?_)
  refine hR.bind (hR.combine op current operand) (fun both x hboth => ?_)
  exact hR.bind (hwrite keys t current u operand w both x hkeys hcurrent hoperand hboth) (fun _ _ _ => hR.pure _)

/-- **What the entered visits keep, and an assignment as a whole, the visit keeps.**  All that a reference does by itself
is to carry out an assignment, and it meets the restriction only if it is stopped. -/
theorem within_of_carryOut (hR : Eval.ReadFrame R) (v : Visit)
    (hassign : ∀ scope members op value kind, v.ref = .assign scope members op value kind →
      (op.isSome = true → v.session.limited = false) →
      Eval.Within R G (Ref.carryOut scope members op value kind) v.session)
    (hstop : v.Stopped ∨ v.ref = .failing .restricted → G v.session) (h : ∀ c, v.Enters c → c.Within R G) :
    v.Within R G := by
  obtain ⟨r, lenient, s⟩ := v
  unfold Within at h ⊢
  cases r with
  | literal v =>
    simp only [Ref.resolve]
    exact hR.pure _
  | newStruct =>
    simp only [Ref.resolve]
    exact hR.bind hR.newStruct_within (fun _ _ _ => hR.pure _)
  | newArray =>
    simp only [Ref.resolve]
    exact hR.bind hR.newArray_within (fun _ _ _ => hR.pure _)
  | var scope members =>
    have hkeys : Eval.Within R G (Ref.keys members) s :=
      keys_within hR members s (fun before m after keys t hsplit hb => by subst hsplit; exact h _ (.varName hb))
    rw [Ref.resolve]
    refine hR.bind hkeys (fun keys t _ => ?_)
    split
    · exact hR.bind (hR.readPath _ _) (fun _ _ _ => hR.pure _)
    · exact hR.readDefined _ _
  | varOrNull scope members =>
    have hkeys : Eval.Within R G (Ref.keys members) s :=
      keys_within hR members s (fun before m after keys t hsplit hb => by subst hsplit; exact h _ (.varOrNullName hb))
    rw [Ref.resolve]
    refine hR.bind hkeys (fun keys t _ => ?_)
    exact hR.bind (hR.readPath _ _) (fun _ _ _ => hR.pure _)
  | concat l r =>
    rw [Ref.resolve]
    refine hR.bind (h _ .concatLeft) (fun v t hl => hR.bind_lift v.toText_ne_restricted (fun text htext => ?_))
    refine hR.bind (h _ (.concatRight hl htext)) (fun w _ _ => ?_)
    exact hR.bind_lift w.toText_ne_restricted (fun _ _ => hR.pure _)
  | not e =>
    rw [Ref.resolve]
    refine hR.bind (h _ .not) (fun v t _ => ?_)
    exact hR.bind_lift v.toBoolean_ne_restricted (fun _ _ => hR.pure _)
  | signed op e =>
    rw [Ref.resolve]
    refine hR.bind (h _ .signed) (fun v t _ => ?_)
    exact hR.bind_lift v.toDecimal_ne_restricted (fun _ _ => hR.pure _)
  | decision op l r =>
    rw [Ref.resolve]
    refine hR.bind (h _ .decisionLeft) (fun v t hl => hR.bind (h _ (.decisionRight hl)) (fun w _ _ => ?_))
    exact hR.bind_lift (op.decide_ne_restricted v w) (fun _ _ => hR.pure _)
  | logic op l r =>
    rw [Ref.resolve]
    refine hR.bind (h _ .logicLeft) (fun v t hl => hR.bind_lift v.toBoolean_ne_restricted (fun b hb => ?_))
    split
    · exact hR.pure _
    · rename_i hboth
      refine hR.bind (h _ (.logicRight hl hb hboth)) (fun w _ _ => ?_)
      exact hR.bind_lift w.toBoolean_ne_restricted (fun _ _ => hR.pure _)
  | arith op l r =>
    rw [Ref.resolve]
    refine hR.ensureUnrestricted (fun hlimited => hstop (.inl ⟨rfl, hlimited⟩)) (fun hfree => ?_)
    refine hR.bind (h _ (.arithLeft hfree)) (fun v t hl => hR.bind_lift v.toDecimal_ne_restricted (fun d hd => ?_))
    refine hR.bind (h _ (.arithRight hfree hl hd)) (fun w _ _ => ?_)
    refine hR.bind_lift w.toDecimal_ne_restricted (fun _ _ => ?_)
    exact hR.bind (hR.compute _ _ _) (fun _ _ _ => hR.pure _)
  | conditional c l r =>
    rw [Ref.resolve]
    refine hR.bind (h _ .condition) (fun v t hc => hR.bind_lift v.toBoolean_ne_restricted (fun b hb => ?_))
    have hbranch := h _ (.branch (l := l) (r := r) hc hb)
    cases b <;> exact hbranch
  | elvis l r =>
    rw [Ref.resolve]
    refine hR.bind (h _ .elvisLeft) (fun v t hl => ?_)
    split
    · rename_i hnull
      exact h _ (.elvisRight hl hnull)
    · exact hR.pure _
  | assign scope members op value kind =>
    cases op with
    | none =>
      simp only [Ref.resolve_assign_none]
      exact hassign _ _ _ _ _ rfl (fun hnone => by cases hnone)
    | some op =>
      simp only [Ref.resolve_assign_some]
      exact hR.ensureUnrestricted (fun hlimited => hstop (.inl ⟨rfl, hlimited⟩))
        (fun hfree => hassign _ _ _ _ _ rfl (fun _ => hfree))
  | cast e target =>
    rw [Ref.resolve]
    exact hR.bind (h _ .cast) (fun v _ _ => hR.lift (target.apply_ne_restricted v))
  | marked text e =>
    rw [Ref.resolve]
    refine hR.bind (hR.mark_within _) (fun _ t ht => ?_)
    cases ht
    exact h _ .marked
  | failing fault =>
    rw [Ref.resolve]
    refine ⟨hR.refl s, fun t ht => ?_⟩
    cases ht
    exact hstop (.inr rfl)

/-- **What the entered visits keep, and the reference by itself, the visit keeps.**  By itself a reference does no more
than write, and meets the restriction only if it is stopped. -/
theorem within_of_entered (hR : Eval.ReadFrame R) (v : Visit)
    (hwrite : ∀ scope keys value t, v.Writes scope keys value t → Eval.Within R G (Eval.writePath scope keys value) t)
    (hstop : v.Stopped ∨ v.ref = .failing .restricted → G v.session) (h : ∀ c, v.Enters c → c.Within R G) :
    v.Within R G := by
  refine within_of_carryOut hR v (fun scope members op value kind href hfree => ?_) hstop h
  obtain ⟨r, lenient, s⟩ := v
  cases href
  refine carryOut_within hR ?_ ?_ ?_
  · intro keys t current u operand w both x hkeys hcurrent hoperand hboth
    exact hwrite _ _ _ _ (.assign hfree hkeys hcurrent hoperand hboth)
  · intro before m after keys t hsplit hb
    subst hsplit
    exact h _ (.assignName hfree hb)
  · intro keys t current u hkeys hcurrent
    exact h _ (.assignValue hfree hkeys hcurrent)

/-- **What every visit that is reached may do by itself, is all that the run does.** -/
theorem within_of_reached (hR : Eval.ReadFrame R) (v : Visit)
    (hwrite : ∀ c, v.Reaches c → ∀ scope keys value t, c.Writes scope keys value t →
      Eval.Within R G (Eval.writePath scope keys value) t)
    (hstop : ∀ c, v.Reaches c → c.Stopped ∨ c.ref = .failing .restricted → G c.session) : v.Within R G := by
  -- by the size of the reference, which every visit that is entered makes smaller
  induction hn : sizeOf v.ref using Nat.strongRecOn generalizing v with
  | _ n ih =>
    subst hn
    refine within_of_entered hR v (hwrite v .refl) (hstop v .refl) (fun c hc => ?_)
    exact ih _ hc.sizeOf_lt c (fun d hd => hwrite d (.head hc hd)) (fun d hd => hstop d (.head hc hd)) rfl

end

end Visit

section

variable {R : Session → Session → Prop} (hR : Eval.Frame R)

include hR

/-- **Resolving a reference keeps what every change of a session keeps.** -/
theorem Ref.resolve_keeps (r : Ref) (lenient : Bool) : Eval.Keeps R (r.resolve lenient) := by
  intro s
  have hwithin : Visit.Within R (fun _ => True) ⟨r, lenient, s⟩ :=
    Visit.within_of_reached hR.toReadFrame _ (fun _ _ scope keys value _ _ => hR.writePath scope keys value)
      (fun _ _ _ => trivial)
  exact hwithin.1

theorem Ref.keys_keeps (members : List Ref) : Eval.Keeps R (Ref.keys members) := fun s =>
  (Visit.keys_within (G := fun _ => True) hR.toReadFrame members s
    (fun _ m _ _ t _ _ => ⟨Ref.resolve_keeps hR m false t, fun _ _ => trivial⟩)).1

end

theorem Ref.keeps_surroundings (r : Ref) (lenient : Bool) : Eval.Keeps Session.SameSurroundings (r.resolve lenient) :=
  Ref.resolve_keeps Session.sameSurroundings_frame r lenient

/-- **Resolving changes neither the settings nor the restriction.** -/
theorem Ref.resolve_surroundings {r : Ref} {lenient : Bool} {s s' : Session} {result : Except Fault Value}
    (h : (r.resolve lenient).run s = (result, s')) : s'.settings = s.settings ∧ s'.limited = s.limited := by
  have hkeep := r.keeps_surroundings lenient s
  rw [h] at hkeep
  exact hkeep

theorem Ref.keys_surroundings {members : List Ref} {s s' : Session} {result : Except Fault (List Key)}
    (h : (Ref.keys members).run s = (result, s')) : s'.settings = s.settings ∧ s'.limited = s.limited := by
  have hkeep := Ref.keys_keeps Session.sameSurroundings_frame members s
  rw [h] at hkeep
  exact hkeep

namespace Visit

theorem Enters.limited {v c : Visit} (h : Enters v c) : c.session.limited = v.session.limited := by
  cases h with
  | varName hkeys => exact (Ref.keys_surroundings hkeys).2
  | varOrNullName hkeys => exact (Ref.keys_surroundings hkeys).2
  | concatRight hl _ => exact (Ref.resolve_surroundings hl).2
  | decisionRight hl => exact (Ref.resolve_surroundings hl).2
  | logicRight hl _ _ => exact (Ref.resolve_surroundings hl).2
  | arithRight _ hl _ => exact (Ref.resolve_surroundings hl).2
  | branch hc _ => exact (Ref.resolve_surroundings hc).2
  | elvisRight hl _ => exact (Ref.resolve_surroundings hl).2
  | assignName _ hkeys => exact (Ref.keys_surroundings hkeys).2
  | @assignValue scope members op value kind lenient s keys t current u _ hkeys hcurrent =>
    have hread := Session.sameSurroundings_frame.readDefined_keeps scope keys t
    rw [hcurrent] at hread
    exact hread.2.trans (Ref.keys_surroundings hkeys).2
  | _ => rfl

/-- A restriction that held at the beginning holds wherever a run comes to. -/
theorem Reaches.limited {v c : Visit} (h : Reaches v c) : c.session.limited = v.session.limited := by
  induction h with
  | refl => rfl
  | tail _ hstep ih => exact hstep.limited.trans ih

end Visit

end LooseExpr
