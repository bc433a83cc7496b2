import LooseExpr.Proofs.Evaluation
import LooseExpr.Proofs.StaticType
import LooseExpr.Proofs.Visit
/-!
# Restricted sessions

In a restricted session arithmetic is refused before any of its operands is resolved.  So it does not matter what the
calculations of a tree are: a tree evaluates as its mask does, in which one and the same calculation stands for all of
them (`Expr.evaluate_masked`).  An evaluation ends in the restriction exactly if it reaches a calculation, and then with
the session as it was at that moment (`Expr.restriction_is_complete`).

A restricted session is not read-only, though.  An assignment that joins texts calculates nothing and is not refused; it
is the one thing that writes there (`Visit.Writes.isTextAssignment`), and as long as none gets so far as to write, every
struct and array keeps its contents (`Expr.evaluate_limited_contents`).
-/
namespace LooseExpr

/-! ## Masks -/

mutual

/-- The reference with all its calculations blotted out. -/
def Ref.masked : Ref → Ref
  | .literal v => .literal v
  | .newStruct => .newStruct
  | .newArray => .newArray
  | .var scope members => .var scope (Ref.maskedAll members)
  | .varOrNull scope members => .varOrNull scope (Ref.maskedAll members)
  | .concat l r => .concat l.masked r.masked
  | .not e => .not e.masked
  | .signed op e => .signed op e.masked
  | .decision op l r => .decision op l.masked r.masked
  | .logic op l r => .logic op l.masked r.masked
  | .arith .. => .arith .plus (.literal .null) (.literal .null)
  | .conditional c l r => .conditional c.masked l.masked r.masked
  | .elvis l r => .elvis l.masked r.masked
  | .assign _ _ (some _) _ _ => .arith .plus (.literal .null) (.literal .null)
  | .assign scope members none value kind => .assign scope (Ref.maskedAll members) none value.masked kind
  | .cast e target => .cast e.masked target
  | .marked text e => .marked text e.masked
  | .failing fault => .failing fault

def Ref.maskedAll : List Ref → List Ref
  | [] => []
  | member :: members => member.masked :: Ref.maskedAll members

end

mutual

/-- The tree with all its calculations blotted out, and all that says where in a source its parts stand. -/
def Expr.masked : Expr → Expr
  | .literal lit => .literal ⟨lit.value, none⟩
  | .newStruct => .newStruct
  | .newArray => .newArray
  | .var scope members _ => .var scope (Expr.maskedAll members) none
  | .cast e target _ => .cast e.masked target none
  | .concat l r _ => .concat l.masked r.masked none
  | .logic op l r _ => .logic op l.masked r.masked none
  | .arith .. => .arith .plus (.literal ⟨.null, none⟩) (.literal ⟨.null, none⟩) none
  | .decision op l r _ => .decision op l.masked r.masked none
  | .not e _ => .not e.masked none
  | .signed op e _ => .signed op e.masked none
  | .assign _ _ _ (some _) _ _ _ => .arith .plus (.literal ⟨.null, none⟩) (.literal ⟨.null, none⟩) none
  | .assign scope members _ none value kind _ =>
    .assign scope (Expr.maskedAll members) none none value.masked kind none
  | .conditional c l r _ => .conditional c.masked l.masked r.masked none
  | .elvis scope members _ r _ => .elvis scope (Expr.maskedAll members) none r.masked none

def Expr.maskedAll : List Expr → List Expr
  | [] => []
  | e :: es => e.masked :: Expr.maskedAll es

end

theorem Constant.masked_lower (settings : Settings) (c : Constant) : (c.lower settings).masked = c.lower settings := by
  cases c with
  | nullWord => cases hnull : settings.nullSupport <;> simp [lower, hnull, Ref.masked, Ref.maskedAll]
  | _ => rfl

theorem Expr.isEmpty_maskedAll (es : List Expr) : (Expr.maskedAll es).isEmpty = es.isEmpty := by
  cases es <;> rfl

mutual

/-- **The mask of a tree is lowered to the mask of its reference.** -/
theorem Expr.lower_masked {settings : Settings} : ∀ (e : Expr) {r : Ref}, e.lower settings = .ok r →
    e.masked.lower settings = .ok r.masked
  | .literal lit, r, h => by
    rw [lower] at h
    cases h
    rw [masked, lower, Constant.masked_lower]
    rfl
  | .newStruct, r, h => by
    rw [lower] at h
    cases h
    rfl
  | .newArray, r, h => by
    rw [lower] at h
    cases h
    rfl
  | .var scope members span, r, h => by
    rw [lower] at h
    obtain ⟨members', hmembers, rfl⟩ := ok_of_map h
    rw [masked, lower, lowerAll_masked members hmembers]
    rfl
  | .cast e target span, r, h => by
    rw [lower] at h
    obtain ⟨e', he, rfl⟩ := ok_of_map h
    rw [masked, lower, lower_masked e he]
    rfl
  | .concat l r span, x, h => by
    rw [lower] at h
    obtain ⟨l', r', hl, hr, rfl⟩ := ok_of_map₂ h
    rw [masked, lower, lower_masked l hl, lower_masked r hr]
    rfl
  | .logic op l r span, x, h => by
    rw [lower] at h
    obtain ⟨l', r', hl, hr, rfl⟩ := ok_of_map₂ h
    rw [masked, lower, lower_masked l hl, lower_masked r hr]
    rfl
  | .arith op l r span, x, h => by
    rw [lower] at h
    obtain ⟨l', r', hl, hr, rfl⟩ := ok_of_map₂ h
    rfl
  | .decision op l r span, x, h => by
    rw [lower] at h
    obtain ⟨l', r', hl, hr, rfl⟩ := ok_of_map₂ h
    rw [masked, lower, lower_masked l hl, lower_masked r hr]
    rfl
  | .not e span, x, h => by
    rw [lower] at h
    obtain ⟨e', he, rfl⟩ := ok_of_map h
    rw [masked, lower, lower_masked e he]
    rfl
  | .signed op e span, x, h => by
    rw [lower] at h
    obtain ⟨e', he, rfl⟩ := ok_of_map h
    rw [masked, lower, lower_masked e he]
    rfl
  | .assign scope members varSpan op value kind span, x, h => by
    rw [lower] at h
    split at h
    · cases h
    rename_i hne
    obtain ⟨members', value', hmembers, hvalue, rfl⟩ := ok_of_map₂ h
    cases op with
    | some op => rfl
    | none =>
      rw [masked, lower, isEmpty_maskedAll, if_neg hne, lowerAll_masked members hmembers, lower_masked value hvalue]
      rfl
  | .conditional c l r span, x, h => by
    rw [lower] at h
    obtain ⟨c', hc, h⟩ := ok_of_bind h
    obtain ⟨l', r', hl, hr, rfl⟩ := ok_of_map₂ h
    rw [masked, lower, lower_masked c hc, lower_masked l hl, lower_masked r hr]
    rfl
  | .elvis scope members varSpan r span, x, h => by
    rw [lower] at h
    obtain ⟨members', r', hmembers, hr, rfl⟩ := ok_of_map₂ h
    rw [masked, lower, lowerAll_masked members hmembers, lower_masked r hr]
    rfl

theorem Expr.lowerAll_masked {settings : Settings} : ∀ (es : List Expr) {rs : List Ref},
    Expr.lowerAll settings es = .ok rs → Expr.lowerAll settings (Expr.maskedAll es) = .ok (Ref.maskedAll rs)
  | [], rs, h => by
    rw [lowerAll] at h
    cases h
    rfl
  | e :: es, rs, h => by
    rw [lowerAll] at h
    obtain ⟨r, rs', hr, hrs, rfl⟩ := ok_of_map₂ h
    rw [maskedAll, lowerAll, lower_masked e hr, lowerAll_masked es hrs]
    rfl

end

/-! ## Masks evaluate alike -/

namespace Eval

variable {α β : Type}

/-- The computations have the same runs in restricted sessions. -/
def Alike (x y : Eval α) : Prop := ∀ s : Session, s.limited = true → x.run s = y.run s

namespace Alike

theorem refl (x : Eval α) : Alike x x := fun _ _ => rfl

theorem bind {x y : Eval α} {f g : α → Eval β} (hxy : Alike x y) (hx : Keeps Session.SameSurroundings x)
    (hfg : ∀ a, Alike (f a) (g a)) : Alike (x >>= f) (y >>= g) := by
  intro s hs
  have hlimited := (hx s).2
  rw [run_bind, run_bind, ← hxy s hs]
  rcases hr : x.run s with ⟨result, t⟩
  rw [hr] at hlimited
  cases result with
  | ok a => exact hfg a t (hlimited.trans hs)
  | error fault => rfl

theorem bind_lift (x : Except Fault α) {f g : α → Eval β} (hfg : ∀ a, Alike (f a) (g a)) :
    Alike (lift x >>= f) (lift x >>= g) :=
  bind (refl _) (fun _ => ⟨rfl, rfl⟩) hfg

/-- Whatever would come after it, a calculation is refused. -/
theorem refused (x y : Eval α) : Alike (ensureUnrestricted >>= fun _ => x) (ensureUnrestricted >>= fun _ => y) := by
  intro s hs
  rw [run_bind_of_error (run_ensureUnrestricted_of_limited hs), run_bind_of_error (run_ensureUnrestricted_of_limited hs)]

end Alike

end Eval

namespace Ref

open Eval (Alike)

mutual

/-- **A reference and its mask resolve alike in restricted sessions.** -/
theorem resolve_masked : ∀ (r : Ref) (lenient : Bool), Alike (r.resolve lenient) (r.masked.resolve lenient)
  | .literal _, _ => .refl _
  | .newStruct, _ => .refl _
  | .newArray, _ => .refl _
  | .failing _, _ => .refl _
  | .var scope members, lenient => by
    rw [masked, resolve, resolve]
    exact (keys_masked members).bind (keys_keeps Session.sameSurroundings_frame members) (fun _ => .refl _)
  | .varOrNull scope members, lenient => by
    rw [masked, resolve, resolve]
    exact (keys_masked members).bind (keys_keeps Session.sameSurroundings_frame members) (fun _ => .refl _)
  | .concat l r, _ => by
    rw [masked, resolve, resolve]
    refine (resolve_masked l false).bind (l.keeps_surroundings _) (fun v => .bind_lift _ (fun text => ?_))
    exact (resolve_masked r false).bind (r.keeps_surroundings _) (fun _ => .refl _)
  | .not e, _ => by
    rw [masked, resolve, resolve]
    exact (resolve_masked e false).bind (e.keeps_surroundings _) (fun _ => .refl _)
  | .signed op e, _ => by
    rw [masked, resolve, resolve]
    exact (resolve_masked e false).bind (e.keeps_surroundings _) (fun _ => .refl _)
  | .decision op l r, _ => by
    rw [masked, resolve, resolve]
    refine (resolve_masked l false).bind (l.keeps_surroundings _) (fun v => ?_)
    exact (resolve_masked r false).bind (r.keeps_surroundings _) (fun _ => .refl _)
  | .logic op l r, _ => by
    rw [masked, resolve, resolve]
    refine (resolve_masked l false).bind (l.keeps_surroundings _) (fun v => .bind_lift _ (fun b => ?_))
    split
    · exact .refl _
    · exact (resolve_masked r false).bind (r.keeps_surroundings _) (fun _ => .refl _)
  | .arith op l r, _ => by
    rw [masked, resolve, resolve]
    exact .refused _ _
  | .conditional c l r, _ => by
    rw [masked, resolve, resolve]
    refine (resolve_masked c false).bind (c.keeps_surroundings _) (fun v => .bind_lift _ (fun b => ?_))
    split
    · exact resolve_masked l false
    · exact resolve_masked r false
  | .elvis l r, _ => by
    rw [masked, resolve, resolve]
    refine (resolve_masked l true).bind (l.keeps_surroundings _) (fun v => ?_)
    split
    · exact resolve_masked r false
    · exact .refl _
  | .assign scope members (some op) value kind, _ => by
    rw [masked, resolve_assign_some, resolve]
    exact .refused _ _
  | .assign scope members none value kind, _ => by
    rw [masked, resolve_assign_none, resolve_assign_none]
    refine (keys_masked members).bind (keys_keeps Session.sameSurroundings_frame members) (fun keys => ?_)
    refine (Alike.refl _).bind (Session.sameSurroundings_frame.readDefined_keeps scope keys) (fun current => ?_)
    exact (resolve_masked value false).bind (value.keeps_surroundings _) (fun _ => .refl _)
  | .cast e target, _ => by
    rw [masked, resolve, resolve]
    exact (resolve_masked e false).bind (e.keeps_surroundings _) (fun _ => .refl _)
  | .marked text e, lenient => by
    rw [masked, resolve, resolve]
    exact (Alike.refl _).bind (fun _ => ⟨rfl, rfl⟩) (fun _ => resolve_masked e lenient)

theorem keys_masked : ∀ (members : List Ref), Alike (Ref.keys members) (Ref.keys (Ref.maskedAll members))
  | [] => .refl _
  | member :: members => by
    rw [maskedAll, keys, keys]
    refine (resolve_masked member false).bind (member.keeps_surroundings _) (fun v => .bind_lift _ (fun key => ?_))
    exact (keys_masked members).bind (keys_keeps Session.sameSurroundings_frame members) (fun _ => .refl _)

end

end Ref

theorem Expr.evaluate_masked {e : Expr} {s : Session} {r : Ref} (hlimited : s.limited = true)
    (hlower : e.lower s.settings = .ok r) : e.masked.evaluate s = e.evaluate s := by
  rw [evaluate_of_lower_ok hlower, evaluate_of_lower_ok (lower_masked e hlower), r.resolve_masked false s hlimited]

/-! ## Trees hold no observers -/

mutual

/-- Nothing in the reference is there for an observer only. -/
def Ref.isPlain : Ref → Bool
  | .literal _ => true
  | .newStruct => true
  | .newArray => true
  | .var _ members => Ref.allPlain members
  | .varOrNull _ members => Ref.allPlain members
  | .concat l r => l.isPlain && r.isPlain
  | .not e => e.isPlain
  | .signed _ e => e.isPlain
  | .decision _ l r => l.isPlain && r.isPlain
  | .logic _ l r => l.isPlain && r.isPlain
  | .arith _ l r => l.isPlain && r.isPlain
  | .conditional c l r => c.isPlain && l.isPlain && r.isPlain
  | .elvis l r => l.isPlain && r.isPlain
  | .assign _ members _ value _ => Ref.allPlain members && value.isPlain
  | .cast e _ => e.isPlain
  | .marked .. => false
  | .failing _ => false

def Ref.allPlain : List Ref → Bool
  | [] => true
  | member :: members => member.isPlain && Ref.allPlain members

end

theorem Constant.isPlain_lower (settings : Settings) (c : Constant) : (c.lower settings).isPlain = true := by
  cases c with
  | nullWord => cases hnull : settings.nullSupport <;> simp [lower, hnull, Ref.isPlain, Ref.allPlain]
  | _ => rfl

mutual

theorem Expr.isPlain_of_lower {settings : Settings} : ∀ (e : Expr) {r : Ref}, e.lower settings = .ok r →
    r.isPlain = true
  | .literal lit, r, h => by
    rw [lower] at h
    cases h
    exact lit.value.isPlain_lower settings
  | .newStruct, r, h => by
    rw [lower] at h
    cases h
    rfl
  | .newArray, r, h => by
    rw [lower] at h
    cases h
    rfl
  | .var scope members span, r, h => by
    rw [lower] at h
    obtain ⟨members', hmembers, rfl⟩ := ok_of_map h
    simp [Ref.isPlain, allPlain_of_lowerAll members hmembers]
  | .cast e target span, r, h => by
    rw [lower] at h
    obtain ⟨e', he, rfl⟩ := ok_of_map h
    simp [Ref.isPlain, isPlain_of_lower e he]
  | .concat l r span, x, h => by
    rw [lower] at h
    obtain ⟨l', r', hl, hr, rfl⟩ := ok_of_map₂ h
    simp [Ref.isPlain, isPlain_of_lower l hl, isPlain_of_lower r hr]
  | .logic op l r span, x, h => by
    rw [lower] at h
    obtain ⟨l', r', hl, hr, rfl⟩ := ok_of_map₂ h
    simp [Ref.isPlain, isPlain_of_lower l hl, isPlain_of_lower r hr]
  | .arith op l r span, x, h => by
    rw [lower] at h
    obtain ⟨l', r', hl, hr, rfl⟩ := ok_of_map₂ h
    simp [Ref.isPlain, isPlain_of_lower l hl, isPlain_of_lower r hr]
  | .decision op l r span, x, h => by
    rw [lower] at h
    obtain ⟨l', r', hl, hr, rfl⟩ := ok_of_map₂ h
    simp [Ref.isPlain, isPlain_of_lower l hl, isPlain_of_lower r hr]
  | .not e span, x, h => by
    rw [lower] at h
    obtain ⟨e', he, rfl⟩ := ok_of_map h
    simp [Ref.isPlain, isPlain_of_lower e he]
  | .signed op e span, x, h => by
    rw [lower] at h
    obtain ⟨e', he, rfl⟩ := ok_of_map h
    simp [Ref.isPlain, isPlain_of_lower e he]
  | .assign scope members varSpan op value kind span, x, h => by
    rw [lower] at h
    split at h
    · cases h
    obtain ⟨members', value', hmembers, hvalue, rfl⟩ := ok_of_map₂ h
    simp [Ref.isPlain, allPlain_of_lowerAll members hmembers, isPlain_of_lower value hvalue]
  | .conditional c l r span, x, h => by
    rw [lower] at h
    obtain ⟨c', hc, h⟩ := ok_of_bind h
    obtain ⟨l', r', hl, hr, rfl⟩ := ok_of_map₂ h
    simp [Ref.isPlain, isPlain_of_lower c hc, isPlain_of_lower l hl, isPlain_of_lower r hr]
  | .elvis scope members varSpan r span, x, h => by
    rw [lower] at h
    obtain ⟨members', r', hmembers, hr, rfl⟩ := ok_of_map₂ h
    simp [Ref.isPlain, allPlain_of_lowerAll members hmembers, isPlain_of_lower r hr]

theorem Expr.allPlain_of_lowerAll {settings : Settings} : ∀ (es : List Expr) {rs : List Ref},
    Expr.lowerAll settings es = .ok rs → Ref.allPlain rs = true
  | [], rs, h => by
    rw [lowerAll] at h
    cases h
    rfl
  | e :: es, rs, h => by
    rw [lowerAll] at h
    obtain ⟨r, rs', hr, hrs, rfl⟩ := ok_of_map₂ h
    simp [Ref.allPlain, isPlain_of_lower e hr, allPlain_of_lowerAll es hrs]

end

theorem Ref.allPlain_append_cons {before after : List Ref} {m : Ref} (h : Ref.allPlain (before ++ m :: after) = true) :
    m.isPlain = true := by
  induction before with
  | nil => exact (Bool.and_eq_true _ _ ▸ h).1
  | cons _ _ ih => exact ih (Bool.and_eq_true _ _ ▸ h).2

theorem Visit.Enters.isPlain {v c : Visit} (h : Enters v c) (hv : v.ref.isPlain = true) : c.ref.isPlain = true := by
  cases h with
  | varName _ => exact Ref.allPlain_append_cons hv
  | varOrNullName _ => exact Ref.allPlain_append_cons hv
  | @branch c l r lenient s v b =>
    simp only [Ref.isPlain, Bool.and_eq_true] at hv
    cases b
    · exact hv.2
    · exact hv.1.2
  | assignName _ _ =>
    simp only [Ref.isPlain, Bool.and_eq_true] at hv
    exact Ref.allPlain_append_cons hv.1
  | _ => simp_all [Ref.isPlain]

theorem Visit.Reaches.isPlain {v c : Visit} (h : Reaches v c) (hv : v.ref.isPlain = true) : c.ref.isPlain = true := by
  induction h with
  | refl => exact hv
  | tail _ hstep ih => exact hstep.isPlain ih

/-! ## Reaching a calculation -/

namespace Visit

theorem run_of_stopped {v : Visit} (h : v.Stopped) : v.run = (.error .restricted, v.session) := by
  obtain ⟨r, lenient, s⟩ := v
  obtain ⟨harith, hlimited⟩ := h
  have hgate := Eval.run_ensureUnrestricted_of_limited hlimited
  unfold run
  cases r with
  | arith op l r =>
    rw [Ref.resolve]
    exact Eval.run_bind_of_error hgate _
  | assign scope members op value kind =>
    cases op with
    | none => cases harith
    | some op =>
      rw [Ref.resolve_assign_some]
      exact Eval.run_bind_of_error hgate _
  | _ => cases harith

/-- **No operand of a refused calculation is resolved**, and no name of its target. -/
theorem not_enters_of_stopped {v c : Visit} (h : v.Stopped) : ¬ v.Enters c := by
  obtain ⟨harith, hlimited⟩ := h
  intro hc
  cases hc with
  | arithLeft hfree => exact Bool.false_ne_true (hfree.symm.trans hlimited)
  | arithRight hfree _ _ => exact Bool.false_ne_true (hfree.symm.trans hlimited)
  | @assignName scope before m after op value kind lenient s keys t hfree hkeys =>
    cases op with
    | none => cases harith
    | some op => exact Bool.false_ne_true ((hfree rfl).symm.trans hlimited)
  | @assignValue scope members op value kind lenient s keys t current u hfree hkeys hcurrent =>
    cases op with
    | none => cases harith
    | some op => exact Bool.false_ne_true ((hfree rfl).symm.trans hlimited)
  | _ => cases harith

/-- **A run that the restriction stopped was stopped at a calculation.** -/
theorem reaches_of_restricted {v : Visit} {t : Session} (hplain : v.ref.isPlain = true)
    (h : v.run = (.error .restricted, t)) : ∃ c, v.Reaches c ∧ c.Stopped ∧ c.session = t := by
  have hall : Eval.ReadFrame (fun _ _ : Session => True) :=
    ⟨fun _ => trivial, fun _ _ => trivial, fun _ => trivial, fun _ => trivial, fun _ _ => trivial⟩
  have hset : Eval.Frame (fun _ _ : Session => True) := ⟨hall, fun _ _ _ _ => trivial⟩
  have hwithin : v.Within (fun _ _ => True) (fun t => ∃ c, v.Reaches c ∧ c.Stopped ∧ c.session = t) := by
    refine within_of_reached hall v (fun _ _ scope keys value _ _ => hset.writePath scope keys value) ?_
    intro c hc hstop
    rcases hstop with hstop | hfailing
    · exact ⟨c, hc, hstop, rfl⟩
    · have := hc.isPlain hplain
      rw [hfailing] at this
      cases this
  exact hwithin.2 t h

end Visit

namespace Expr

/-- The visits that the evaluation of a tree makes. -/
def Reaches (e : Expr) (s : Session) (v : Visit) : Prop :=
  ∃ r, e.lower s.settings = .ok r ∧ Visit.Reaches ⟨r, false, s⟩ v

theorem evaluate_eq_restricted_iff {e : Expr} {s t : Session} {r : Ref} (hlower : e.lower s.settings = .ok r) :
    e.evaluate s = (.error (.fault .restricted), t) ↔ Visit.run ⟨r, false, s⟩ = (.error .restricted, t) := by
  rw [evaluate_of_lower_ok hlower, Visit.run]
  rcases (r.resolve false).run s with ⟨result, u⟩
  cases result with
  | ok v =>
    change ((.ok v, u) : Except Failure Value × Session) = _ ↔ _
    simp
  | error fault =>
    change ((.error (.fault fault), u) : Except Failure Value × Session) = _ ↔ _
    simp

theorem evaluate_of_reaches_arithmetic {e : Expr} {s : Session} {v : Visit} (hlimited : s.limited = true)
    (hreach : e.Reaches s v) (harith : v.ref.isArithmetic = true) :
    v.Stopped ∧ e.evaluate s = (.error (.fault .restricted), v.session) := by
  obtain ⟨r, hlower, hv⟩ := hreach
  have hstopped : v.Stopped := ⟨harith, hv.limited.trans hlimited⟩
  exact ⟨hstopped, (evaluate_eq_restricted_iff hlower).2 (hv.run_error (Visit.run_of_stopped hstopped))⟩

/-- **The restriction is complete.**  In a restricted session, trees that differ only in their calculations evaluate to
the same result and the same session.  Wherever a calculation is reached, the evaluation ends with the restriction, in the
session of that moment and without a visit to anything in the calculation; and it ends with the restriction nowhere
else. -/
theorem restriction_is_complete (e e' : Expr) (s : Session) {r r' : Ref} (hlimited : s.limited = true)
    (hmask : e.masked = e'.masked) (hlower : e.lower s.settings = .ok r) (hlower' : e'.lower s.settings = .ok r') :
    e.evaluate s = e'.evaluate s ∧
    (∀ v, e.Reaches s v → v.ref.isArithmetic = true →
      e.evaluate s = (.error (.fault .restricted), v.session) ∧ ∀ c, ¬ v.Enters c) ∧
    (∀ t, e.evaluate s = (.error (.fault .restricted), t) →
      ∃ v, e.Reaches s v ∧ v.ref.isArithmetic = true ∧ v.session = t) ∧
    Fault.restricted.kind = .restriction ∧
    Fault.restricted.detail = "invalid syntax, math operations are not supported in a json string." := by
  refine ⟨?_, fun v hreach harith => ?_, fun t ht => ?_, rfl, rfl⟩
  · rw [← evaluate_masked hlimited hlower, hmask, evaluate_masked hlimited hlower']
  · obtain ⟨hstopped, hresult⟩ := evaluate_of_reaches_arithmetic hlimited hreach harith
    exact ⟨hresult, fun c => Visit.not_enters_of_stopped hstopped⟩
  · have hrun := (evaluate_eq_restricted_iff hlower).1 ht
    obtain ⟨v, hv, hstopped, hsession⟩ := Visit.reaches_of_restricted (isPlain_of_lower e hlower) hrun
    exact ⟨v, ⟨r, hlower, hv⟩, hstopped.1, hsession⟩

end Expr

/-- A restricted session in which the variable `x` has a value. -/
def Session.limitedX (v : Value) : Session := { Session.withX v with limited := true }

/-- Joins something to `x`. -/
def Expr.joinX (e : Expr) : Expr := .mkAssign (.ofNames .vars [.literal ⟨.string "X", none⟩] none) none e .pre none

/-- Joins `b` to `x`, and then something to the result. -/
def Expr.joinXThen (e : Expr) : Expr := .mkConcat (.joinX (.literal ⟨.string "b", none⟩)) e false

/-- Divides by zero. -/
def Expr.divideByZero : Expr := .mkArith .divide (.literal ⟨.integer 1, none⟩) (.literal ⟨.integer 0, none⟩)

/-- Counts up a variable that is not there. -/
def Expr.countMissing : Expr :=
  .mkAssign (.ofNames .url [.literal ⟨.string "y", none⟩] none) (some .plus) (.literal ⟨.integer 1, none⟩) .post none

set_option maxRecDepth 10000 in
theorem Expr.restriction_is_complete_joined :
    (joinXThen divideByZero).evaluate (.limitedX (.text "a")) = (joinXThen countMissing).evaluate (.limitedX (.text "a")) ∧
    (joinXThen divideByZero).evaluate (.limitedX (.text "a")) =
      (.error (.fault .restricted), .limitedX (.text "ab")) := by
  obtain ⟨hsame, hreached, -⟩ := restriction_is_complete (joinXThen divideByZero) (joinXThen countMissing)
    (.limitedX (.text "a")) rfl rfl rfl rfl
  have hjoined : ((Ref.assign .vars [.literal (.text "X")] none (.literal (.text "b")) .pre).resolve false).run
      (.limitedX (.text "a")) = (.ok (.text "ab"), .limitedX (.text "ab")) := by rfl
  have hdivision : (joinXThen divideByZero).Reaches (.limitedX (.text "a"))
      ⟨.arith .divide (.literal (.ofInt 1)) (.literal (.ofInt 0)), false, .limitedX (.text "ab")⟩ :=
    ⟨_, rfl, .head (.concatRight hjoined rfl) (.single .cast)⟩
  exact ⟨hsame, (hreached _ hdivision rfl).1⟩

/-! ## What a restricted session keeps -/

/-- The structs and arrays of the sessions have the same contents. -/
def Session.SameContents (s t : Session) : Prop :=
  (∀ id, t.store.record id = s.store.record id) ∧ ∀ id, t.store.items id = s.store.items id

/-- What is missing reads as empty already, so a new empty struct or array changes no contents. -/
theorem Store.getD_push_default {α : Type} (xs : Array α) (x : α) (i : Nat) : (xs.push x).getD i x = xs.getD i x := by
  rw [Array.getD_eq_getD_getElem?, Array.getD_eq_getD_getElem?, Array.getElem?_push]
  split
  · rename_i heq
    simp [heq]
  · rfl

theorem Session.sameContents_readFrame : Eval.ReadFrame Session.SameContents where
  refl _ := ⟨fun _ => rfl, fun _ => rfl⟩
  trans h h' := ⟨fun id => (h'.1 id).trans (h.1 id), fun id => (h'.2 id).trans (h.2 id)⟩
  newStruct s := ⟨fun id => Store.getD_push_default s.store.structs [] id.index, fun _ => rfl⟩
  newArray s := ⟨fun _ => rfl, fun id => Store.getD_push_default s.store.arrays [] id.index⟩
  mark _ _ := ⟨fun _ => rfl, fun _ => rfl⟩

/-- An assignment that joins texts. -/
def Ref.isTextAssignment : Ref → Bool
  | .assign _ _ none _ _ => true
  | _ => false

theorem Visit.Writes.isTextAssignment {v : Visit} {scope : Scope} {keys : List Key} {value : Value} {t : Session}
    (h : v.Writes scope keys value t) (hlimited : v.session.limited = true) : v.ref.isTextAssignment = true := by
  cases h with
  | @assign scope members op _ _ _ _ _ _ _ _ _ _ _ _ hfree =>
    cases op with
    | none => rfl
    | some op => exact absurd ((hfree rfl).symm.trans hlimited) Bool.false_ne_true

/-- **Only assignments that join texts change a restricted session**: unless one is reached and gets so far as to write,
every struct and every array has the contents that it had, whether the evaluation fails or not. -/
theorem Expr.evaluate_limited_contents (e : Expr) (s : Session) (hlimited : s.limited = true)
    (hjoins : ∀ v, e.Reaches s v → v.ref.isTextAssignment = true →
      ∀ scope keys value t, ¬ v.Writes scope keys value t) :
    (∀ id, (e.evaluate s).2.store.record id = s.store.record id) ∧
      ∀ id, (e.evaluate s).2.store.items id = s.store.items id := by
  cases hlower : e.lower s.settings with
  | error failure =>
    rw [evaluate_of_lower_error hlower]
    exact ⟨fun _ => rfl, fun _ => rfl⟩
  | ok r =>
    rw [evaluate_of_lower_ok hlower]
    have hwithin : Visit.Within Session.SameContents (fun _ => True) ⟨r, false, s⟩ := by
      refine Visit.within_of_reached Session.sameContents_readFrame _ ?_ (fun _ _ _ => trivial)
      intro v hv scope keys value t hwrites
      have htext := hwrites.isTextAssignment (hv.limited.trans hlimited)
      exact absurd hwrites (hjoins v ⟨r, hlower, hv⟩ htext scope keys value t)
    exact hwithin.1

/-- **A restricted session is not read-only**: joining a text to a variable is not refused. -/
theorem Expr.limited_not_readOnly :
    ¬ ∀ (e : Expr) (s : Session), s.limited = true → ∀ id, (e.evaluate s).2.store.record id = s.store.record id := by
  intro h
  have := h (.joinX (.literal ⟨.string "b", none⟩)) (.limitedX (.text "a")) rfl (Session.scopeId .vars)
  revert this
  decide

theorem Visit.Enters.ref_of_assign {scope : Scope} {members : List Ref} {op : Option NumberOp} {value : Ref}
    {kind : AssignKind} {lenient : Bool} {s : Session} {c : Visit}
    (h : Enters ⟨.assign scope members op value kind, lenient, s⟩ c) : c.ref ∈ members ∨ c.ref = value := by
  cases h with
  | assignName _ _ => exact .inl (by simp)
  | assignValue _ _ _ => exact .inr rfl

/-- `x` is read, but what would be joined to it is refused. -/
theorem Expr.joinX_divideByZero_not_writes (v : Visit) (h : (joinX divideByZero).Reaches (.limitedX (.text "a")) v)
    (htext : v.ref.isTextAssignment = true) (scope : Scope) (keys : List Key) (value : Value) (t : Session) :
    ¬ v.Writes scope keys value t := by
  intro hwrites
  obtain ⟨r, hlower, h⟩ := h
  cases hlower
  rcases h.cases_head with rfl | ⟨c, hc, hv⟩
  · cases hwrites with
    | assign _ hkeys hcurrent hoperand _ =>
      cases hkeys
      cases hcurrent
      cases hoperand
  -- nothing in it is an assignment of any kind
  obtain ⟨ref, lenient, u⟩ := c
  have hlimited : u.limited = true := hc.limited
  rcases hc.ref_of_assign with hname | hoperand
  · cases List.mem_singleton.1 hname
    rcases hv.cases_head with rfl | ⟨d, hd, -⟩
    · cases htext
    · cases hd
  · cases hoperand
    rcases hv.cases_head with rfl | ⟨d, hd, hv⟩
    · cases htext
    cases hd
    rcases hv.cases_head with rfl | ⟨d', hd', -⟩
    · cases htext
    · exact Visit.not_enters_of_stopped ⟨rfl, hlimited⟩ hd'

theorem Expr.joinX_divideByZero_limited_contents :
    (joinX divideByZero).evaluate (.limitedX (.text "a")) = (.error (.fault .restricted), .limitedX (.text "a")) ∧
      (∀ id, ((joinX divideByZero).evaluate (.limitedX (.text "a"))).2.store.record id =
        (Session.limitedX (.text "a")).store.record id) ∧
      ∀ id, ((joinX divideByZero).evaluate (.limitedX (.text "a"))).2.store.items id =
        (Session.limitedX (.text "a")).store.items id :=
  ⟨by rfl, evaluate_limited_contents (joinX divideByZero) (.limitedX (.text "a")) rfl joinX_divideByZero_not_writes⟩

end LooseExpr
