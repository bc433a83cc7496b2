import LooseExpr.Proofs.Code.Patching
/-!
# Emission that succeeds

`Emit.Yields` is an emission without a failure.  What the parts of an emitter yield is what the whole yields, one after
the other; a jump over a part has its place as soon as that part is there.
-/
namespace LooseExpr

namespace Emit

variable {place : Nat} {keys keys' : KeyTable} {code : List Instr}

/-- The emitter succeeds, with this code and these keys. -/
def Yields (e : Emit) (place : Nat) (keys : KeyTable) (code : List Instr) (keys' : KeyTable) : Prop :=
  e.run place keys = ⟨code, keys', none⟩

theorem yields_of_failure_none {e : Emit} (h : (e.run place keys).failure = none) :
    e.Yields place keys (e.run place keys).code (e.run place keys).keys := by
  unfold Yields
  rw [← h]

theorem yields_nothing : nothing.Yields place keys code keys' ↔ code = [] ∧ keys' = keys := by
  unfold Yields nothing
  simp only [Emission.mk.injEq, and_true]
  exact ⟨fun h => ⟨h.1.symm, h.2.symm⟩, fun h => ⟨h.1.symm, h.2.symm⟩⟩

theorem yields_push {i : Instr} : (push i).Yields place keys code keys' ↔ code = [i] ∧ keys' = keys := by
  unfold Yields push
  simp only [Emission.mk.injEq, and_true]
  exact ⟨fun h => ⟨h.1.symm, h.2.symm⟩, fun h => ⟨h.1.symm, h.2.symm⟩⟩

theorem Yields.push (i : Instr) : (push i).Yields place keys [i] keys := rfl

theorem not_yields_fail {failure : Failure} : ¬ (fail failure).Yields place keys code keys' := by
  unfold Yields fail
  simp

/-- **One emitter after the other**: the second one begins where the first one ended. -/
theorem yields_append {a b : Emit} : (a ++ b).Yields place keys code keys' ↔
    ∃ first middle second, a.Yields place keys first middle ∧
      b.Yields (place + first.length) middle second keys' ∧ code = first ++ second := by
  show (a.andThen b).Yields place keys code keys' ↔ _
  unfold Yields andThen
  simp only
  rcases a.run place keys with ⟨first, middle, failure⟩
  cases failure with
  | some failure => simp
  | none =>
    simp only [Emission.mk.injEq, and_true]
    rcases hb : b.run (place + first.length) middle with ⟨second, last, failure⟩
    constructor
    · rintro ⟨rfl, rfl, rfl⟩
      exact ⟨first, middle, second, ⟨rfl, rfl⟩, by rw [hb], rfl⟩
    · rintro ⟨first', middle', second', ⟨rfl, rfl⟩, hb', rfl⟩
      rw [hb] at hb'
      cases hb'
      exact ⟨rfl, rfl, rfl⟩

theorem Yields.append {a b : Emit} {middle : KeyTable} {first second : List Instr}
    (ha : a.Yields place keys first middle) (hb : b.Yields (place + first.length) middle second keys') :
    (a ++ b).Yields place keys (first ++ second) keys' := yields_append.2 ⟨first, middle, second, ha, hb, rfl⟩

theorem yields_jumpOver {jump : Nat → Instr} {body : Emit} : (jumpOver jump body).Yields place keys code keys' ↔
    ∃ inner, body.Yields (place + 1) keys inner keys' ∧ code = jump (place + 1 + inner.length) :: inner := by
  unfold Yields jumpOver
  simp only
  rcases body.run (place + 1) keys with ⟨inner, last, failure⟩
  cases failure with
  | some failure => simp
  | none =>
    constructor
    · intro h
      cases h
      exact ⟨inner, rfl, rfl⟩
    · rintro ⟨inner', h, rfl⟩
      cases h
      rfl

/-- **Two ways to go on**: the jump at the front leads to the second one, the jump at the end of the first one past
it. -/
theorem yields_branch {yes no : Emit} : (branch yes no).Yields place keys code keys' ↔
    ∃ first middle second, yes.Yields (place + 1) keys first middle ∧
      no.Yields (place + 1 + first.length + 1) middle second keys' ∧
      code = .jumpIfFalse (place + 1 + first.length + 1) ::
        (first ++ .jump (place + 1 + first.length + 1 + second.length) :: second) := by
  unfold Yields branch
  simp only
  rcases yes.run (place + 1) keys with ⟨first, middle, failure⟩
  cases failure with
  | some failure => simp
  | none =>
    simp only [Emission.mk.injEq, and_true]
    constructor
    · rintro ⟨rfl, hkeys, hfailure⟩
      have hno := yields_of_failure_none hfailure
      rw [hkeys] at hno
      obtain ⟨second, hsecond, hcode⟩ := yields_jumpOver.1 hno
      exact ⟨first, middle, second, ⟨rfl, rfl⟩, hsecond, by rw [hcode]⟩
    · rintro ⟨first', middle', second, ⟨rfl, rfl⟩, hsecond, rfl⟩
      have hno : (jumpOver .jump no).run (place + 1 + first.length) middle = _ :=
        yields_jumpOver.2 ⟨second, hsecond, rfl⟩
      rw [hno]
      exact ⟨rfl, rfl, rfl⟩

/-- The key of a name is one instruction. -/
theorem code_of_yields_key {env : Env} {name : String} (h : (key env name).Yields place keys code keys') :
    (∃ field, code = [.loadKeyConstant field]) ∨ ∃ index, code = [.loadKey env.unit index] := by
  unfold key at h
  split at h
  · rename_i field _
    exact .inl ⟨field, (yields_push.1 h).1⟩
  · cases h
    exact .inr ⟨_, rfl⟩

end Emit

end LooseExpr
