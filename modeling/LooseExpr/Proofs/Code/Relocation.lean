import LooseExpr.Proofs.Code.Interning
/-!
# Code that can begin anywhere

Emission leaves the instructions and the keys that were there, and what it appends depends on the place where it begins
only through its jumps: emitted from another place on, every jump leads as far from the beginning as before
(`CodeUnit.perform_appends_relocatably`).  A jump whose place was not known when the emission failed has none in either
code.
-/
namespace LooseExpr

/-- **The instruction that stands for another where code from `start` to `stop` begins at `start'`.**  Only code that was
`cut` off by a failure has jumps without a place. -/
inductive Instr.Relocated (cut : Bool) (start stop start' : Nat) : Instr → Instr → Prop
  | plain {i : Instr} : i.target? = none → Relocated cut start stop start' i i
  | unplaced {i : Instr} : cut = true → i.target? = some unknownPlace → Relocated cut start stop start' i i
  | placed {i : Instr} {place : Nat} : i.target? = some place → start < place → place ≤ stop →
    Relocated cut start stop start' i (i.retarget (place - start + start'))

namespace Instr.Relocated

variable {cut : Bool} {start stop stop' start' : Nat} {i j : Instr}

theorem extend (h : Relocated cut start stop start' i j) (hstop : stop ≤ stop') :
    Relocated cut start stop' start' i j := by
  cases h with
  | plain hi => exact .plain hi
  | unplaced hcut hi => exact .unplaced hcut hi
  | placed hi hlt hle => exact .placed hi hlt (Nat.le_trans hle hstop)

/-- Code without a failure may stand before code that is cut off. -/
theorem of_uncut (h : Relocated false start stop start' i j) : Relocated cut start stop start' i j := by
  cases h with
  | plain hi => exact .plain hi
  | unplaced hcut hi => cases hcut
  | placed hi hlt hle => exact .placed hi hlt hle

/-- What stands behind `n` instructions, counted from the first of them. -/
theorem behind {n : Nat} (h : Relocated cut (start + n) stop (start' + n) i j) :
    Relocated cut start stop start' i j := by
  cases h with
  | plain hi => exact .plain hi
  | unplaced hcut hi => exact .unplaced hcut hi
  | @placed place hi hlt hle =>
    have hmove : place - (start + n) + (start' + n) = place - start + start' := by omega
    rw [hmove]
    exact .placed hi (by omega) hle

end Instr.Relocated

/-- **The emission from `start` on, and the one from `start'` on**, with the same keys before them. -/
structure Emission.Relocated (start start' : Nat) (r r' : Emission) : Prop where
  failure : r'.failure = r.failure
  keys : r'.keys = r.keys
  code : List.Forall₂ (Instr.Relocated r.failure.isSome start (start + r.code.length) start') r.code r'.code

namespace Emit

variable {env : Env} {a b : Emit} {start start' : Nat} {t : KeyTable}

theorem relocated_append (ha : (a.run start t).Relocated start start' (a.run start' t))
    (hb : ∀ p p' t', (b.run p t').Relocated p p' (b.run p' t')) :
    ((a ++ b).run start t).Relocated start start' ((a ++ b).run start' t) := by
  cases hfailure : (a.run start t).failure with
  | some failure =>
    have hfailure' := ha.failure.trans hfailure
    rw [run_append_of_some hfailure, run_append_of_some hfailure']
    exact ha
  | none =>
    have hfailure' := ha.failure.trans hfailure
    have hlength : (a.run start' t).code.length = (a.run start t).code.length := ha.code.length_eq.symm
    have hcode := ha.code
    have hb := hb (start + (a.run start t).code.length) (start' + (a.run start t).code.length) (a.run start t).keys
    rw [hfailure, Option.isSome_none] at hcode
    rw [run_append_of_none hfailure, run_append_of_none hfailure', hlength, ha.keys]
    refine ⟨hb.failure, hb.keys, List.rel_append ?_ ?_⟩
    · -- the first part has all its places, and the code goes on after it
      refine hcode.imp fun i j h => (h.extend ?_).of_uncut
      simp only [List.length_append]
      omega
    · refine hb.code.imp fun i j h => (h.extend ?_).behind
      simp only [List.length_append]
      omega

theorem relocated_jump {jump : Nat → Instr} (hjump : Instr.IsJump jump) {cut : Bool} {n stop : Nat} (hn : 0 < n)
    (hstop : start + n ≤ stop) : Instr.Relocated cut start stop start' (jump (start + n)) (jump (start' + n)) := by
  have hmove : (jump (start + n)).retarget (start + n - start + start') = jump (start' + n) := by
    rw [hjump.retarget]
    congr 1
    omega
  rw [← hmove]
  exact .placed (hjump.target? _) (by omega) hstop

theorem relocated_jumpOver {jump : Nat → Instr} (hjump : Instr.IsJump jump)
    (ha : (a.run (start + 1) t).Relocated (start + 1) (start' + 1) (a.run (start' + 1) t)) :
    ((jumpOver jump a).run start t).Relocated start start' ((jumpOver jump a).run start' t) := by
  have hlength : (a.run (start' + 1) t).code.length = (a.run (start + 1) t).code.length := ha.code.length_eq.symm
  unfold jumpOver
  refine ⟨ha.failure, ha.keys, .cons ?_ ?_⟩
  · simp only [ha.failure, hlength, List.length_cons]
    cases hfailure : (a.run (start + 1) t).failure with
    | some failure => exact .unplaced rfl (hjump.target? _)
    | none =>
      simp only [Option.isSome_none, Bool.false_eq_true, if_false, Nat.add_assoc]
      exact relocated_jump hjump (by omega) (by omega)
  · refine ha.code.imp fun i j h => (h.extend ?_).behind
    simp only [List.length_cons]
    omega

theorem relocated_branch (ha : (a.run (start + 1) t).Relocated (start + 1) (start' + 1) (a.run (start' + 1) t))
    (hb : ∀ p p' t', (b.run p t').Relocated p p' (b.run p' t')) :
    ((branch a b).run start t).Relocated start start' ((branch a b).run start' t) := by
  have hjump : Instr.IsJump Instr.jump := ⟨fun _ => rfl, fun _ _ => rfl⟩
  have hfront : Instr.IsJump Instr.jumpIfFalse := ⟨fun _ => rfl, fun _ _ => rfl⟩
  have hlength : (a.run (start' + 1) t).code.length = (a.run (start + 1) t).code.length := ha.code.length_eq.symm
  have hinner := relocated_append ha fun p p' t' => relocated_jumpOver hjump (hb (p + 1) (p' + 1) t')
  rw [run_branch, run_branch]
  refine ⟨hinner.failure, hinner.keys, .cons ?_ ?_⟩
  · simp only [ha.failure, hlength, List.length_cons]
    cases hfailure : (a.run (start + 1) t).failure with
    | some failure =>
      rw [run_append_of_some hfailure, hfailure]
      exact .unplaced rfl rfl
    | none =>
      rw [run_append_of_none hfailure]
      simp only [Option.isSome_none, Bool.false_eq_true, if_false, Nat.add_assoc]
      refine relocated_jump hfront (by omega) ?_
      simp only [List.length_append, jumpOver, List.length_cons]
      omega
  · refine hinner.code.imp fun i j h => (h.extend ?_).behind
    simp only [List.length_cons]
    omega

/-- **What is emitted depends on the place where it begins only through its jumps.** -/
theorem Assembled.relocated {e : Emit} {u : Uses} (h : Assembled env e u) (start start' : Nat) (t : KeyTable) :
    (e.run start t).Relocated start start' (e.run start' t) := by
  induction h generalizing start start' t with
  | nothing => exact ⟨rfl, rfl, .nil⟩
  | push hjump _ => exact ⟨rfl, rfl, .cons (.plain hjump) .nil⟩
  | fail failure => exact ⟨rfl, rfl, .nil⟩
  | key name =>
    unfold Emit.key
    cases Key.fieldName? name with
    | some field => exact ⟨rfl, rfl, .cons (.plain rfl) .nil⟩
    | none => exact ⟨rfl, rfl, .cons (.plain rfl) .nil⟩
  | append _ _ iha ihb => exact relocated_append (iha start start' t) ihb
  | jumpOver hjump _ ih => exact relocated_jumpOver hjump (ih (start + 1) (start' + 1) t)
  | branch _ _ iha ihb => exact relocated_branch (iha (start + 1) (start' + 1) t) ihb

end Emit

namespace CodeUnit

/-- **A call appends code that could stand elsewhere.**  The instructions that were there stay, and so do the keys and the
numbers that the index leads to, whether the call succeeds or fails.  In a unit that differs in its code only, the call has
the same outcome and leads to the same keys, and it appends the same instructions, with the jumps moved by the difference
of the beginnings. -/
theorem perform_appends_relocatably (u : CodeUnit) (code' : Array Instr) (call : Call) :
    let r := u.perform call
    let r' := { u with code := code' }.perform call
    u.keys.keys <+: r.2.keys.keys ∧ (∀ name i, u.keys.get? name = some i → r.2.keys.get? name = some i) ∧
    r'.1 = r.1 ∧ r'.2.keys = r.2.keys ∧
    ∃ added added' : List Instr, r.2.code = u.code ++ added.toArray ∧ r'.2.code = code' ++ added'.toArray ∧
      List.Forall₂ (Instr.Relocated (!r.1.isOk) u.code.size r.2.code.size code'.size) added added' := by
  intro r r'
  let u' : CodeUnit := { u with code := code' }
  have hmoved : (u.emission call).Relocated u.code.size code'.size (u'.emission call) :=
    (call.emitter_assembled u.env).relocated u.code.size code'.size u.keys
  have hkeys : r.2.keys = u.keys.internAll (call.uses u.settings).names := u.keys_perform call
  have hr : r = _ := u.perform_eq call
  have hr' : r' = _ := u'.perform_eq call
  refine ⟨?_, fun name i hget => ?_, ?_, ?_, (u.emission call).code, (u'.emission call).code, ?_, ?_, ?_⟩
  · rw [hkeys]
    exact u.keys.prefix_internAll _
  · rw [hkeys]
    exact KeyTable.get?_of_prefix (u.keys.prefix_internAll _) hget
  · rw [hr, hr']
    simp only [Emission.outcome, hmoved.failure]
  · rw [hr, hr']
    exact hmoved.keys
  · rw [hr]
  · rw [hr']
  · have hsize : r.2.code.size = u.code.size + (u.emission call).code.length := by
      rw [hr]
      simp
    have hcut : (!r.1.isOk) = (u.emission call).failure.isSome := by
      rw [hr]
      unfold Emission.outcome
      cases (u.emission call).failure <;> rfl
    rw [hsize, hcut]
    exact hmoved.code

end CodeUnit

end LooseExpr
