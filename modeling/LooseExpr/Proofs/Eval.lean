import LooseExpr.Proofs.TypeNames
import LooseExpr.Ref.Resolve
/-!
# Computations in a session

A run of an `Eval` ends in a result and a session.  The lemmas on `run` say how runs are put together, so that later
proofs need not open the monad.

Two things are asked of a run, from where it begins (`Eval.Within`): that it leads to a session in the relation `R` to
the one it began with, whether it fails or not, and that, if the restriction stops it, it does so in a session of which
`G` holds.  All that a session offers is within a relation that its single changes respect, and none of it meets the
restriction, but for the one function that asks for it.
-/
namespace LooseExpr

namespace Eval

variable {α β : Type}

theorem run_pure (a : α) (s : Session) : (pure a : Eval α).run s = (.ok a, s) := rfl

theorem run_lift (x : Except Fault α) (s : Session) : (lift x).run s = (x, s) := rfl

theorem run_bind (x : Eval α) (f : α → Eval β) (s : Session) :
    (x >>= f).run s = match x.run s with
      | (.ok a, s') => (f a).run s'
      | (.error fault, s') => (.error fault, s') := by
  simp only [bind, ExceptT.bind, ExceptT.run, ExceptT.mk, StateT.bind, ExceptT.bindCont]
  rcases x s with ⟨result, s'⟩
  cases result <;> rfl

theorem run_bind_of_ok {x : Eval α} {s s' : Session} {a : α} (h : x.run s = (.ok a, s')) (f : α → Eval β) :
    (x >>= f).run s = (f a).run s' := by
  rw [run_bind, h]

theorem run_bind_of_error {x : Eval α} {s s' : Session} {fault : Fault} (h : x.run s = (.error fault, s'))
    (f : α → Eval β) : (x >>= f).run s = (.error fault, s') := by
  rw [run_bind, h]

/-- **A run that goes on after another one, unpacked.** -/
theorem ok_of_run_bind {x : Eval α} {f : α → Eval β} {s s' : Session} {b : β} (h : (x >>= f).run s = (.ok b, s')) :
    ∃ a t, x.run s = (.ok a, t) ∧ (f a).run t = (.ok b, s') := by
  rw [run_bind] at h
  rcases hx : x.run s with ⟨result, t⟩
  rw [hx] at h
  cases result with
  | ok a => exact ⟨a, t, rfl, h⟩
  | error fault => cases h

theorem ok_of_run_lift_bind {x : Except Fault α} {f : α → Eval β} {s s' : Session} {b : β}
    (h : (lift x >>= f).run s = (.ok b, s')) : ∃ a, x = .ok a ∧ (f a).run s = (.ok b, s') := by
  obtain ⟨a, t, hx, hf⟩ := ok_of_run_bind h
  rw [run_lift] at hx
  cases hx
  exact ⟨a, rfl, hf⟩

theorem run_get_bind (f : Session → Eval β) (s : Session) : ((get : Eval Session) >>= f).run s = (f s).run s :=
  run_bind_of_ok rfl f

theorem run_lift_ok_bind (a : α) (f : α → Eval β) (s : Session) : (lift (.ok a) >>= f).run s = (f a).run s :=
  run_bind_of_ok (run_lift _ s) f

/-! ## Asking for the restriction -/

theorem run_ensureUnrestricted {s : Session} (h : s.limited = false) : ensureUnrestricted.run s = (.ok (), s) := by
  have hget : (get : Eval Session).run s = (.ok s, s) := rfl
  unfold ensureUnrestricted
  rw [run_bind_of_ok hget, h]
  rfl

theorem run_ensureUnrestricted_of_limited {s : Session} (h : s.limited = true) :
    ensureUnrestricted.run s = (.error .restricted, s) := by
  have hget : (get : Eval Session).run s = (.ok s, s) := rfl
  unfold ensureUnrestricted
  rw [run_bind_of_ok hget, h]
  rfl

end Eval

/-! ## Conversions do not meet the restriction -/

section

variable {α β : Type}

theorem bind_ne_restricted {x : Except Fault α} {f : α → Except Fault β} (hx : x ≠ .error .restricted)
    (hf : ∀ a, f a ≠ .error .restricted) : (x >>= f) ≠ .error .restricted := by
  cases x with
  | ok a => exact hf a
  | error fault => exact fun h => hx (by cases h; rfl)

theorem map_ne_restricted {x : Except Fault α} (hx : x ≠ .error .restricted) (f : α → β) :
    (do return f (← x) : Except Fault β) ≠ .error .restricted :=
  bind_ne_restricted hx (fun _ h => by cases h)

end

namespace Value

theorem toDecimal_ne_restricted (v : Value) : v.toDecimal ≠ .error .restricted := by
  unfold toDecimal
  split <;> (try split) <;> simp

theorem toBoolean_ne_restricted (v : Value) : v.toBoolean ≠ .error .restricted := by
  unfold toBoolean
  split <;> (try split) <;> simp

theorem toText_ne_restricted (v : Value) : v.toText ≠ .error .restricted := by
  unfold toText
  split <;> simp

theorem toInt_ne_restricted (v : Value) : v.toInt ≠ .error .restricted := by
  refine bind_ne_restricted v.toDecimal_ne_restricted (fun d => ?_)
  split <;> simp

theorem toKey_ne_restricted (v : Value) : v.toKey ≠ .error .restricted := by
  unfold toKey
  split
  · simp
  · simp
  · simp
  · exact map_ne_restricted (toText_ne_restricted _) _

theorem looseOrder_ne_restricted (l r : Value) : l.looseOrder r ≠ .error .restricted := by
  unfold looseOrder
  split
  · simp
  split
  · simp
  split
  · simp
  split
  · simp
  · refine bind_ne_restricted (toText_ne_restricted _) (fun _ => ?_)
    exact map_ne_restricted (toText_ne_restricted _) _

theorem containsText_ne_restricted (l r : Value) : l.containsText r ≠ .error .restricted := by
  refine bind_ne_restricted l.toText_ne_restricted (fun _ => ?_)
  exact map_ne_restricted r.toText_ne_restricted _

theorem toNamed_ne_restricted (v : Value) (name : String) : v.toNamed name ≠ .error .restricted := by
  rw [toNamed_eq]
  split
  · exact map_ne_restricted (toText_ne_restricted _) _
  · exact map_ne_restricted (toDecimal_ne_restricted _) _
  · exact map_ne_restricted (toBoolean_ne_restricted _) _
  · exact map_ne_restricted (toInt_ne_restricted _) _
  · simp
  · simp
  · simp
  · simp

end Value

theorem DecisionOp.decide_ne_restricted (op : DecisionOp) (l r : Value) : op.decide l r ≠ .error .restricted := by
  cases op with
  | eeq => simp [decide]
  | neeq => simp [decide]
  | ct => exact l.containsText_ne_restricted r
  | nct => exact map_ne_restricted (l.containsText_ne_restricted r) _
  | _ => exact map_ne_restricted (l.looseOrder_ne_restricted r) _

theorem CastTarget.apply_ne_restricted (target : CastTarget) (v : Value) : target.apply v ≠ .error .restricted := by
  cases target with
  | number => exact map_ne_restricted v.toDecimal_ne_restricted _
  | string => exact map_ne_restricted v.toText_ne_restricted _
  | boolean => exact map_ne_restricted v.toBoolean_ne_restricted _
  | int => exact map_ne_restricted v.toInt_ne_restricted _
  | other name => exact v.toNamed_ne_restricted name

theorem descend_ne_restricted (store : Store) : ∀ (keys : List Key) (v : Value),
    descend store v keys ≠ .error .restricted
  | [], _ => by simp [descend]
  | key :: keys, v => by
    unfold descend
    split
    · split
      · exact descend_ne_restricted store keys _
      · simp
    · simp

/-! ## What runs keep -/

namespace Eval

variable {α β : Type}

/-- Every run of the computation leads to a session in the relation to the one it began with. -/
def Keeps (R : Session → Session → Prop) (x : Eval α) : Prop := ∀ s, R s (x.run s).2

/-- **A relation that every change of a session respects, but for the setting of an entry.** -/
structure ReadFrame (R : Session → Session → Prop) : Prop where
  refl : ∀ s, R s s
  trans : ∀ {s t u}, R s t → R t u → R s u
  newStruct : Keeps R Eval.newStruct
  newArray : Keeps R Eval.newArray
  mark : ∀ text, Keeps R (Eval.mark text)

/-- **A relation that every single change of a session respects.** -/
structure Frame (R : Session → Session → Prop) : Prop extends ReadFrame R where
  setEntry : ∀ id key value, Keeps R (Eval.setEntry id key value)

/-- **From `s` on**, the computation changes the session only as `R` allows, and the restriction stops it only where `G`
allows. -/
def Within (R : Session → Session → Prop) (G : Session → Prop) (x : Eval α) (s : Session) : Prop :=
  R s (x.run s).2 ∧ ∀ t, x.run s = (.error .restricted, t) → G t

namespace ReadFrame

variable {R : Session → Session → Prop} {G : Session → Prop} {s : Session} (hR : ReadFrame R)

include hR

theorem pure (a : α) : Within R G (Pure.pure a : Eval α) s := ⟨hR.refl s, fun _ h => by cases h⟩

theorem lift {x : Except Fault α} (h : x ≠ .error .restricted) : Within R G (Eval.lift x) s :=
  ⟨hR.refl s, fun _ hx => absurd (congrArg Prod.fst hx) h⟩

theorem throw {fault : Fault} (h : fault ≠ .restricted) : Within R G (throw fault : Eval α) s :=
  ⟨hR.refl s, fun _ hx => absurd (Except.error.inj (congrArg Prod.fst hx)) h⟩

theorem get : Within R G (get : Eval Session) s := ⟨hR.refl s, fun _ h => by cases h⟩

/-- **What comes after a run is only asked for where the run leads to.** -/
theorem bind {x : Eval α} {f : α → Eval β} (hx : Within R G x s)
    (hf : ∀ a t, x.run s = (.ok a, t) → Within R G (f a) t) : Within R G (x >>= f) s := by
  obtain ⟨hkeep, hstop⟩ := hx
  unfold Within
  rw [run_bind]
  rcases hr : x.run s with ⟨result, t⟩
  rw [hr] at hkeep
  cases result with
  | ok a => exact ⟨hR.trans hkeep (hf a t hr).1, (hf a t hr).2⟩
  | error fault =>
    refine ⟨hkeep, fun u hu => hstop u ?_⟩
    cases hu
    exact hr

theorem bind_lift {x : Except Fault α} {f : α → Eval β} (h : x ≠ .error .restricted)
    (hf : ∀ a, x = .ok a → Within R G (f a) s) : Within R G (Eval.lift x >>= f) s := by
  refine hR.bind (hR.lift h) (fun a t ht => ?_)
  rw [run_lift] at ht
  cases ht
  exact hf a rfl

theorem newStruct_within : Within R G Eval.newStruct s := ⟨hR.newStruct s, fun _ h => by cases h⟩

theorem newArray_within : Within R G Eval.newArray s := ⟨hR.newArray s, fun _ h => by cases h⟩

theorem mark_within (text : String) : Within R G (Eval.mark text) s := ⟨hR.mark text s, fun _ h => by cases h⟩

theorem readPath (scope : Scope) : ∀ keys, Within R G (Eval.readPath scope keys) s
  | [] => hR.pure _
  | _ :: rest => by
    refine hR.bind hR.get (fun s' t _ => ?_)
    split
    · exact hR.lift (descend_ne_restricted _ rest _)
    · exact hR.pure _

theorem readDefined (scope : Scope) (keys : List Key) : Within R G (Eval.readDefined scope keys) s := by
  refine hR.bind (hR.readPath scope keys) (fun found t _ => ?_)
  split
  · exact hR.pure _
  · exact hR.throw (by simp)

theorem readDefined_keeps (scope : Scope) (keys : List Key) : Keeps R (Eval.readDefined scope keys) :=
  fun _ => (hR.readDefined (G := fun _ => True) scope keys).1

theorem compute (op : NumberOp) (l r : Decimal) : Within R G (Eval.compute op l r) s := by
  refine hR.bind hR.get (fun s' t _ => hR.lift ?_)
  cases op.compute l r s'.settings.divisionPrecision.toNat with
  | ok _ => exact nofun
  | error _ => exact nofun

theorem combine (op : Option NumberOp) (current operand : Value) : Within R G (Eval.combine op current operand) s := by
  unfold Eval.combine
  split
  · refine hR.bind_lift current.toDecimal_ne_restricted (fun before _ => ?_)
    refine hR.bind_lift operand.toDecimal_ne_restricted (fun after _ => ?_)
    exact hR.bind (hR.compute _ _ _) (fun _ _ _ => hR.pure _)
  · refine hR.bind_lift current.toText_ne_restricted (fun before _ => ?_)
    exact hR.bind_lift operand.toText_ne_restricted (fun _ _ => hR.pure _)

theorem ensureUnrestricted {x : Eval α} (hstop : s.limited = true → G s) (hx : s.limited = false → Within R G x s) :
    Within R G (Eval.ensureUnrestricted >>= fun _ => x) s := by
  unfold Within
  cases hlimited : s.limited with
  | true =>
    rw [run_bind_of_error (run_ensureUnrestricted_of_limited hlimited)]
    refine ⟨hR.refl s, fun t ht => ?_⟩
    cases ht
    exact hstop hlimited
  | false =>
    rw [run_bind_of_ok (run_ensureUnrestricted hlimited)]
    exact hx hlimited

end ReadFrame

namespace Frame

variable {R : Session → Session → Prop} {G : Session → Prop} (hR : Frame R)

include hR

theorem setEntry_within {s : Session} (id : StructId) (key : Key) (value : Value) :
    Within R G (Eval.setEntry id key value) s :=
  ⟨hR.setEntry id key value s, fun _ h => by cases h⟩

theorem openPath (last : Key) : ∀ (keys : List Key) (container : StructId) {s : Session},
    Within R G (Eval.openPath last container keys) s
  | [], _, _ => hR.pure _
  | key :: keys, container, _ => by
    refine hR.bind hR.get (fun s t _ => ?_)
    split
    · exact openPath last keys _
    · exact hR.throw (by simp)
    · refine hR.bind hR.newStruct_within (fun id _ _ => ?_)
      exact hR.bind (hR.setEntry_within _ _ _) (fun _ _ _ => openPath last keys id)

theorem writePath {s : Session} (scope : Scope) (keys : List Key) (value : Value) :
    Within R G (Eval.writePath scope keys value) s := by
  unfold Eval.writePath
  split
  · exact hR.throw (by simp)
  · refine hR.bind hR.get (fun s t _ => ?_)
    exact hR.bind (hR.openPath _ _ _) (fun _ _ _ => hR.setEntry_within _ _ _)

end Frame

end Eval

/-- The sessions have the same settings and the same restriction. -/
def Session.SameSurroundings (s t : Session) : Prop := t.settings = s.settings ∧ t.limited = s.limited

theorem Session.sameSurroundings_frame : Eval.Frame Session.SameSurroundings where
  refl _ := ⟨rfl, rfl⟩
  trans h h' := ⟨h'.1.trans h.1, h'.2.trans h.2⟩
  newStruct _ := ⟨rfl, rfl⟩
  newArray _ := ⟨rfl, rfl⟩
  mark _ _ := ⟨rfl, rfl⟩
  setEntry _ _ _ _ := ⟨rfl, rfl⟩

end LooseExpr
