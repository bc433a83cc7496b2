import LooseExpr.Proofs.Code.Uses
import LooseExpr.Proofs.Record
import Mathlib.Data.List.Forall2
/-!
# Keys that are interned once

After any calls on a new unit, whether they failed or not, the key table holds the names that were used, each once and in
the order and the spelling of its first use, and every instruction that loads a key leads to the key of the name that it
was emitted for (`CodeUnit.interning_coherent`).

What one emission does is said by `Emission.Interns`: the table has taken in the names of the emitter, and the key loads
of its code stand for these names, one by one.  The rest follows from the table being a fold over all the names there
were.  The index says where a name stands among the keys (`KeyTable.get?_eq_findIdx?`), because every table that a call
makes has it in step with them.
-/
namespace LooseExpr

namespace Key

theorem fieldName?_eq_none_iff {name : String} : fieldName? name = none ↔ name ∉ wellKnownNames := by
  unfold fieldName?
  split <;> simp [*]

end Key

/-! ## The table -/

namespace KeyTable

variable {t t' : KeyTable}

/-- The table with a name taken in, unless the name is well known. -/
def intern (t : KeyTable) (name : String) : KeyTable :=
  match Key.fieldName? name with
  | some _ => t
  | none => (t.register name).2

def internAll (t : KeyTable) (names : List String) : KeyTable := names.foldl intern t

theorem internAll_append (t : KeyTable) (xs ys : List String) :
    t.internAll (xs ++ ys) = (t.internAll xs).internAll ys := List.foldl_append

theorem register_of_some {name : String} {i : Nat} (h : t.get? name = some i) : t.register name = (i, t) := by
  unfold register
  split
  next j hj =>
    cases h.symm.trans hj
    rfl
  next hnone => cases h.symm.trans hnone

theorem register_of_none {name : String} (h : t.get? name = none) : t.register name = (t.keys.length, t.add name h) := by
  unfold register
  split
  next j hj => cases h.symm.trans hj
  next => rfl

theorem prefix_register (t : KeyTable) (name : String) : t.keys <+: (t.register name).2.keys := by
  cases hget : t.get? name with
  | none =>
    rw [register_of_none hget]
    exact List.prefix_append _ _
  | some i => rw [register_of_some hget]

theorem prefix_intern (t : KeyTable) (name : String) : t.keys <+: (t.intern name).keys := by
  unfold intern
  cases Key.fieldName? name with
  | none => exact t.prefix_register name
  | some field => exact List.prefix_rfl

/-- **Numbers and spellings stay.** -/
theorem prefix_internAll (t : KeyTable) (names : List String) : t.keys <+: (t.internAll names).keys := by
  induction names generalizing t with
  | nil => exact List.prefix_rfl
  | cons name names ih => exact (t.prefix_intern name).trans (ih (t.intern name))

/-! ### The index -/

theorem get?_eq_findIdx? (t : KeyTable) (name : String) : t.get? name = t.keys.findIdx? fun key => key.same ⟨name⟩ :=
  t.inStep ⟨name⟩

/-- **Numbers that the index leads to stay** as keys are added. -/
theorem get?_of_prefix (h : t.keys <+: t'.keys) {name : String} {i : Nat} (hget : t.get? name = some i) :
    t'.get? name = some i := by
  obtain ⟨added, hadded⟩ := h
  rw [get?_eq_findIdx?] at hget ⊢
  rw [← hadded, List.findIdx?_append, hget, Option.some_or]

theorem get?_eq_none_iff {name : String} : t.get? name = none ↔ ∀ key ∈ t.keys, key.same ⟨name⟩ = false := by
  rw [get?_eq_findIdx?, List.findIdx?_eq_none_iff]

/-- **A number that the index leads to is that of a key with the same entry.** -/
theorem getElem?_of_get? {name : String} {i : Nat} (hget : t.get? name = some i) :
    ∃ key, t.keys[i]? = some key ∧ key.same ⟨name⟩ = true := by
  rw [get?_eq_findIdx?] at hget
  obtain ⟨hlt, hsame, -⟩ := List.findIdx?_eq_some_iff_getElem.1 hget
  exact ⟨t.keys[i], List.getElem?_eq_getElem hlt, hsame⟩

/-- **A name that is registered has its number.** -/
theorem getElem?_register (t : KeyTable) (name : String) :
    ∃ key, (t.register name).2.keys[(t.register name).1]? = some key ∧ key.same ⟨name⟩ = true := by
  cases hget : t.get? name with
  | none =>
    rw [register_of_none hget]
    exact ⟨⟨name⟩, by simp [add], Key.same_refl _⟩
  | some i =>
    rw [register_of_some hget]
    exact getElem?_of_get? hget

/-! ### Keys -/

/-- No two keys of the table name the same entry. -/
def Distinct (t : KeyTable) : Prop := t.keys.Pairwise fun a b => a.same b = false

theorem Distinct.intern (h : t.Distinct) (name : String) : (t.intern name).Distinct := by
  unfold KeyTable.intern
  cases Key.fieldName? name with
  | some field => exact h
  | none =>
    simp only
    cases hget : t.get? name with
    | some i =>
      rw [register_of_some hget]
      exact h
    | none =>
      rw [register_of_none hget]
      refine List.pairwise_append.2 ⟨h, List.pairwise_singleton _ _, fun a ha b hb => ?_⟩
      rw [List.mem_singleton.1 hb]
      exact get?_eq_none_iff.1 hget a ha

theorem Distinct.internAll (h : t.Distinct) (names : List String) : (t.internAll names).Distinct := by
  induction names generalizing t with
  | nil => exact h
  | cons name names ih => exact ih (h.intern name)

/-- **Where keys are distinct, the index leads to each key that names the same entry.** -/
theorem Distinct.get?_eq_some_iff (h : t.Distinct) {name : String} {i : Nat} :
    t.get? name = some i ↔ ∃ key, t.keys[i]? = some key ∧ key.same ⟨name⟩ = true := by
  refine ⟨getElem?_of_get?, ?_⟩
  rintro ⟨key, hkey, hsame⟩
  obtain ⟨hlt, rfl⟩ := List.getElem?_eq_some_iff.1 hkey
  rw [get?_eq_findIdx?, List.findIdx?_eq_some_iff_getElem]
  refine ⟨hlt, hsame, fun j hj hother => ?_⟩
  have hdistinct := List.pairwise_iff_getElem.1 h j i (by omega) hlt hj
  rw [Key.same_trans hother (Key.same_comm _ _ ▸ hsame)] at hdistinct
  cases hdistinct

theorem spelling_intern {name : String} (h : ∀ key ∈ t.keys, key.spelling ∉ Key.wellKnownNames) :
    ∀ key ∈ (t.intern name).keys, key.spelling ∉ Key.wellKnownNames := by
  unfold intern
  cases hfield : Key.fieldName? name with
  | some field => exact h
  | none =>
    simp only
    cases hget : t.get? name with
    | some i =>
      rw [register_of_some hget]
      exact h
    | none =>
      rw [register_of_none hget]
      intro key hkey
      rcases List.mem_append.1 hkey with hkey | hkey
      · exact h key hkey
      · rw [List.mem_singleton.1 hkey]
        exact Key.fieldName?_eq_none_iff.1 hfield

theorem spelling_internAll {names : List String} (h : ∀ key ∈ t.keys, key.spelling ∉ Key.wellKnownNames) :
    ∀ key ∈ (t.internAll names).keys, key.spelling ∉ Key.wellKnownNames := by
  induction names generalizing t with
  | nil => exact h
  | cons name names ih => exact ih (spelling_intern h)

/-- The keys of names in the order and spelling of their first use; well-known names have no key here. -/
def firstUses (names : List String) : List Key :=
  ((names.filter fun name => name ∉ Key.wellKnownNames).map Key.mk).eraseDupsBy Key.same

-- The keys kept so far stand in reverse order, as `eraseDupsBy` keeps them.
theorem keys_internAll (t : KeyTable) (names : List String) : (t.internAll names).keys =
    List.eraseDupsBy.loop Key.same ((names.filter fun name => name ∉ Key.wellKnownNames).map Key.mk) t.keys.reverse := by
  induction names generalizing t with
  | nil => simp [KeyTable.internAll, List.eraseDupsBy.loop]
  | cons name names ih =>
    have hstep : t.internAll (name :: names) = (t.intern name).internAll names := rfl
    rw [hstep, ih (t.intern name)]
    unfold KeyTable.intern
    cases hfield : Key.fieldName? name with
    | some field =>
      have hknown : name ∈ Key.wellKnownNames := by
        by_contra hnot
        rw [Key.fieldName?_eq_none_iff.2 hnot] at hfield
        cases hfield
      simp [hknown]
    | none =>
      have hunknown := Key.fieldName?_eq_none_iff.1 hfield
      rw [List.filter_cons_of_pos (by simpa using hunknown), List.map_cons, List.eraseDupsBy.loop]
      simp only
      cases hget : t.get? name with
      | none =>
        have hnew : t.keys.reverse.any (Key.same ⟨name⟩) = false := by
          rw [List.any_reverse, List.any_eq_false]
          intro key hkey
          rw [Key.same_comm, get?_eq_none_iff.1 hget key hkey]
          exact Bool.false_ne_true
        simp [register_of_none hget, add, hnew]
      | some i =>
        obtain ⟨key, hkey, hsame⟩ := getElem?_of_get? hget
        have hold : t.keys.reverse.any (Key.same ⟨name⟩) = true := by
          rw [List.any_reverse, List.any_eq_true]
          exact ⟨key, List.mem_of_getElem? hkey, Key.same_comm _ _ ▸ hsame⟩
        simp [register_of_some hget, hold]

theorem keys_internAll_empty (names : List String) : (empty.internAll names).keys = firstUses names :=
  empty.keys_internAll names

end KeyTable

/-! ## Emission -/

/-- **The instruction loads the key of the name**: the constant with its spelling, or a key of the table of the unit that
names the same entry. -/
def Instr.Loads (unit : String) (t : KeyTable) : Instr → String → Prop
  | .loadKeyConstant field, name => Key.constant? field = some ⟨name⟩
  | .loadKey unit' index, name => unit' = unit ∧ ∃ key, t.keys[index]? = some key ∧ key.same ⟨name⟩ = true
  | _, _ => False

theorem Instr.Loads.mono {unit : String} {t t' : KeyTable} (h : t.keys <+: t'.keys) {i : Instr} {name : String}
    (hi : i.Loads unit t name) : i.Loads unit t' name := by
  unfold Loads at hi ⊢
  split at hi
  · exact hi
  · obtain ⟨hunit, key, hkey, hsame⟩ := hi
    obtain ⟨added, hadded⟩ := h
    have hlt := (List.getElem?_eq_some_iff.1 hkey).1
    refine ⟨hunit, key, ?_, hsame⟩
    rw [← hadded, List.getElem?_append_left hlt, hkey]
  · exact hi

/-- **The emission has taken the names into the table and loads their keys, one after the other**; it failed if the use of
names was stopped. -/
structure Emission.Interns (unit : String) (t : KeyTable) (u : Uses) (r : Emission) : Prop where
  failure : r.failure.isNone = u.complete
  keys : r.keys = t.internAll u.names
  loads : List.Forall₂ (Instr.Loads unit r.keys) (r.code.filter Instr.loadsKey) u.names

namespace Emit

theorem interns_key (env : Env) (name : String) (place : Nat) (t : KeyTable) :
    ((key env name).run place t).Interns env.unit t (.one name) := by
  unfold key
  cases hfield : Key.fieldName? name with
  | some field =>
    refine ⟨rfl, ?_, .cons (Key.constant?_of_fieldName? hfield) .nil⟩
    simp [push, KeyTable.internAll, KeyTable.intern, hfield, Uses.one]
  | none =>
    refine ⟨rfl, ?_, .cons ⟨rfl, t.getElem?_register name⟩ .nil⟩
    simp [KeyTable.internAll, KeyTable.intern, hfield, Uses.one]

variable {env : Env} {unit : String} {t : KeyTable} {u v : Uses} {place : Nat}

theorem interns_append {a b : Emit} (ha : (a.run place t).Interns unit t u)
    (hb : ∀ place' t', (b.run place' t').Interns unit t' v) : ((a ++ b).run place t).Interns unit t (u ++ v) := by
  cases hfailure : (a.run place t).failure with
  | some failure =>
    have hstopped : u.complete = false := by rw [← ha.failure, hfailure, Option.isNone_some]
    rw [run_append_of_some hfailure, Uses.append_of_not_complete hstopped]
    exact ha
  | none =>
    have hcomplete : u.complete = true := by rw [← ha.failure, hfailure, Option.isNone_none]
    have hb := hb (place + (a.run place t).code.length) (a.run place t).keys
    rw [run_append_of_none hfailure, Uses.append_of_complete hcomplete]
    refine ⟨hb.failure, ?_, ?_⟩
    · simp only
      rw [hb.keys, ha.keys, KeyTable.internAll_append]
    · have hgrow := (a.run place t).keys.prefix_internAll v.names
      rw [← hb.keys] at hgrow
      simp only [List.filter_append]
      exact List.rel_append (ha.loads.imp fun _ _ h => h.mono hgrow) hb.loads

theorem interns_jumpOver {jump : Nat → Instr} (hjump : Instr.IsJump jump) {a : Emit}
    (ha : (a.run (place + 1) t).Interns unit t u) : ((jumpOver jump a).run place t).Interns unit t u := by
  obtain ⟨hcomplete, hkeys, hloads⟩ := ha
  refine ⟨hcomplete, hkeys, ?_⟩
  unfold jumpOver
  simp only
  rw [List.filter_cons_of_neg (by rw [Instr.loadsKey_of_target? (hjump.target? _)]; exact Bool.false_ne_true)]
  exact hloads

theorem interns_branch {a b : Emit} (ha : (a.run (place + 1) t).Interns unit t u)
    (hb : ∀ place' t', (b.run place' t').Interns unit t' v) : ((branch a b).run place t).Interns unit t (u ++ v) := by
  have hjump : Instr.IsJump Instr.jump := ⟨fun _ => rfl, fun _ _ => rfl⟩
  obtain ⟨hcomplete, hkeys, hloads⟩ := interns_append ha fun place' t' => interns_jumpOver hjump (hb (place' + 1) t')
  rw [run_branch]
  exact ⟨hcomplete, hkeys, hloads⟩

/-- **What one emission does to the table, and what its code loads.** -/
theorem Assembled.interns {e : Emit} (h : Assembled env e u) (place : Nat) (t : KeyTable) :
    (e.run place t).Interns env.unit t u := by
  induction h generalizing place t with
  | nothing => exact ⟨rfl, rfl, .nil⟩
  | push _ hkey =>
    refine ⟨rfl, rfl, ?_⟩
    rw [Emit.push, List.filter_cons_of_neg (by rw [hkey]; exact Bool.false_ne_true)]
    exact .nil
  | fail failure => exact ⟨rfl, rfl, .nil⟩
  | key name => exact interns_key env name place t
  | append _ _ iha ihb => exact interns_append (iha place t) ihb
  | jumpOver hjump _ ih => exact interns_jumpOver hjump (ih (place + 1) t)
  | branch _ _ iha ihb => exact interns_branch (iha (place + 1) t) ihb

end Emit

/-! ## Calls on a unit -/

namespace CodeUnit

variable {u : CodeUnit} {names : List String}

/-- The names that calls use, in order. -/
def Call.allNames (settings : Settings) (calls : List Call) : List String :=
  calls.flatMap fun call => (call.uses settings).names

/-- **What the unit is after these names were used**: its table has taken them in, and its code loads their keys. -/
structure Interned (names : List String) (u : CodeUnit) : Prop where
  keys : u.keys = KeyTable.empty.internAll names
  loads : List.Forall₂ (Instr.Loads u.name u.keys) (u.code.toList.filter Instr.loadsKey) names

theorem settings_perform (u : CodeUnit) (call : Call) : (u.perform call).2.settings = u.settings := by
  rw [perform_eq]

theorem name_perform (u : CodeUnit) (call : Call) : (u.perform call).2.name = u.name := by
  rw [perform_eq]

theorem emission_interns (u : CodeUnit) (call : Call) :
    (u.emission call).Interns u.name u.keys (call.uses u.settings) :=
  (call.emitter_assembled u.env).interns u.code.size u.keys

theorem keys_perform (u : CodeUnit) (call : Call) :
    (u.perform call).2.keys = u.keys.internAll (call.uses u.settings).names := by
  rw [perform_eq]
  exact (u.emission_interns call).keys

theorem code_perform (u : CodeUnit) (call : Call) :
    (u.perform call).2.code.toList = u.code.toList ++ (u.emission call).code := by
  rw [perform_eq]
  simp

theorem Interned.perform (h : u.Interned names) (call : Call) :
    (u.perform call).2.Interned (names ++ (call.uses u.settings).names) := by
  have hkeys := u.keys_perform call
  refine ⟨?_, ?_⟩
  · rw [hkeys, h.keys, KeyTable.internAll_append]
  · have hgrow := u.keys.prefix_internAll (call.uses u.settings).names
    have hnew := (u.emission_interns call).loads
    rw [(u.emission_interns call).keys] at hnew
    rw [code_perform, name_perform, hkeys, List.filter_append]
    exact List.rel_append (h.loads.imp fun _ _ hi => hi.mono hgrow) hnew

theorem settings_performAll (u : CodeUnit) (calls : List Call) : (u.performAll calls).settings = u.settings := by
  induction calls generalizing u with
  | nil => rfl
  | cons call calls ih => exact (ih (u.perform call).2).trans (u.settings_perform call)

theorem name_performAll (u : CodeUnit) (calls : List Call) : (u.performAll calls).name = u.name := by
  induction calls generalizing u with
  | nil => rfl
  | cons call calls ih => exact (ih (u.perform call).2).trans (u.name_perform call)

theorem Interned.performAll (h : u.Interned names) (calls : List Call) :
    (u.performAll calls).Interned (names ++ Call.allNames u.settings calls) := by
  induction calls generalizing u names with
  | nil =>
    rw [Call.allNames, List.flatMap_nil, List.append_nil]
    exact h
  | cons call calls ih =>
    have hrest := ih (h.perform call)
    rw [settings_perform, List.append_assoc] at hrest
    exact hrest

theorem interned_new (settings : Settings) (name : String) : (new settings name).Interned [] := ⟨rfl, .nil⟩

/-- **Keys are interned coherently over the whole life of a unit**, whichever calls succeed: no two keys of the table name
the same entry; a name has the number of the key that names the same entry; numbers and spellings that were given stay;
the keys stand in the order of their first use; the key loads of the code, taken in order, load the keys of the names
that were used, in order; and no name in the table is a well-known one. -/
theorem interning_coherent (settings : Settings) (name : String) (before after : List Call) :
    let earlier := (new settings name).performAll before
    let u := earlier.performAll after
    let names := Call.allNames settings (before ++ after)
    u.keys.keys.Pairwise (fun a b => a.same b = false) ∧
    (∀ (text : String) (i : Nat), u.keys.get? text = some i ↔
      ∃ key, u.keys.keys[i]? = some key ∧ key.same ⟨text⟩ = true) ∧
    earlier.keys.keys <+: u.keys.keys ∧ u.keys.keys = KeyTable.firstUses names ∧
    List.Forall₂ (Instr.Loads name u.keys) (u.code.toList.filter Instr.loadsKey) names ∧
    ∀ key ∈ u.keys.keys, key.spelling ∉ Key.wellKnownNames := by
  intro earlier u names
  have hearlier : earlier.Interned (Call.allNames settings before) := (interned_new settings name).performAll before
  have hsettings : earlier.settings = settings := (new settings name).settings_performAll before
  have hname : u.name = name := (earlier.name_performAll after).trans ((new settings name).name_performAll before)
  have hu : u.Interned names := by
    have h := hearlier.performAll after
    rw [hsettings] at h
    simpa [names, Call.allNames] using h
  have hdistinct : u.keys.Distinct := by
    rw [hu.keys]
    exact KeyTable.Distinct.internAll (t := .empty) .nil names
  have hgrow : u.keys = earlier.keys.internAll (Call.allNames settings after) := by
    rw [hu.keys, hearlier.keys, ← KeyTable.internAll_append]
    simp [names, Call.allNames]
  refine ⟨hdistinct, fun text i => hdistinct.get?_eq_some_iff, ?_, ?_, ?_, ?_⟩
  · rw [hgrow]
    exact earlier.keys.prefix_internAll _
  · rw [hu.keys, KeyTable.keys_internAll_empty]
  · rw [← hname]
    exact hu.loads
  · rw [hu.keys]
    exact KeyTable.spelling_internAll (fun key hkey => absurd hkey List.not_mem_nil)

end CodeUnit

end LooseExpr
