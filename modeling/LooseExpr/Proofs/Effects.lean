import LooseExpr.Proofs.Nodes
import LooseExpr.Proofs.Record
import LooseExpr.Proofs.Restriction
import Mathlib.Data.List.Forall2
/-!
# What an evaluation changes

Only assignments write, and an assignment reads its variable before it writes it.  So what is there stays there: an entry
keeps its key, an entry with a handle keeps the handle, and an array its items.  New entries come up in one place only,
the variables: an assignment without a scope may read a variable of another scope and write one of its own, with the
structs on the way to it.

`Session.MayBecome` says so of two sessions.  It holds along every run (`Visit.mayBecome`).  The one step that needs an
argument is the assignment: between reading and writing other assignments may run, but none of them can turn what was
read into anything else than a number or a text, nor take a struct off the path (`Session.MayBecome.writePath`).
-/
namespace LooseExpr

/-- The values that assignments store. -/
def Value.isAssigned : Value → Bool
  | .number _ => true
  | .text _ => true
  | _ => false

theorem Value.isComplex_of_isAssigned {v : Value} (h : v.isAssigned = true) : v.isComplex = false := by
  cases v with
  | struct _ | array _ => cases h
  | _ => rfl

theorem Value.isComplex_of_toDecimal {v : Value} {d : Decimal} (h : v.toDecimal = .ok d) : v.isComplex = false := by
  cases v with
  | struct _ | array _ => cases h
  | _ => rfl

theorem Value.isComplex_of_toText {v : Value} {text : String} (h : v.toText = .ok text) : v.isComplex = false := by
  cases v with
  | struct _ | array _ => cases h
  | _ => rfl

/-! ## Records -/

namespace Record

/-- **What becomes of an entry**: the key stays, and so does the value, unless it has no handle and gives way to a number
or a text. -/
def Updates (old new : Key × Value) : Prop :=
  new.1 = old.1 ∧ (new.2 = old.2 ∨ old.2.isComplex = false ∧ new.2.isAssigned = true)

theorem Updates.refl (entry : Key × Value) : Updates entry entry := ⟨rfl, .inl rfl⟩

theorem Updates.trans {a b c : Key × Value} (hab : Updates a b) (hbc : Updates b c) : Updates a c := by
  obtain ⟨hkey, hab⟩ := hab
  obtain ⟨hkey', hbc⟩ := hbc
  refine ⟨hkey'.trans hkey, ?_⟩
  rcases hbc with hsame | ⟨hsimple, hassigned⟩
  · rw [hsame]
    exact hab
  · rcases hab with hsame | ⟨hsimple', -⟩
    · exact .inr ⟨hsame ▸ hsimple, hassigned⟩
    · exact .inr ⟨hsimple', hassigned⟩

theorem updates_refl (r : Record) : List.Forall₂ Updates r r := List.forall₂_same.2 fun entry _ => .refl entry

theorem updates_trans {r r' r'' : Record} (h : List.Forall₂ Updates r r') (h' : List.Forall₂ Updates r' r'') :
    List.Forall₂ Updates r r'' := by
  induction h generalizing r'' with
  | nil => exact h'
  | cons hentry _ ih =>
    cases h' with
    | cons hentry' h' => exact .cons (hentry.trans hentry') (ih h')

theorem exists_of_mem_updated {r r' : Record} (h : List.Forall₂ Updates r r') {entry : Key × Value}
    (hentry : entry ∈ r') : ∃ old ∈ r, Updates old entry := by
  induction h with
  | nil => cases hentry
  | @cons old new r r' hfirst _ ih =>
    rcases List.mem_cons.1 hentry with rfl | hentry
    · exact ⟨old, List.mem_cons_self, hfirst⟩
    · obtain ⟨old', hold', hupdates⟩ := ih hentry
      exact ⟨old', List.mem_cons_of_mem _ hold', hupdates⟩

/-- **What is found under a key before and after**: nothing both times, or an entry and what became of it. -/
theorem get?_of_updates {r r' : Record} (h : List.Forall₂ Updates r r') (key : Key) :
    (r.get? key = none ∧ r'.get? key = none) ∨
      ∃ k v w, r.get? key = some v ∧ r'.get? key = some w ∧ Updates (k, v) (k, w) := by
  induction h with
  | nil => exact .inl ⟨rfl, rfl⟩
  | @cons old new r r' hentry _ ih =>
    obtain ⟨k, v⟩ := old
    obtain ⟨k', w⟩ := new
    obtain ⟨rfl, hvalue⟩ := hentry
    rw [get?_cons, get?_cons]
    cases hsame : k'.same key with
    | true => exact .inr ⟨k', v, w, rfl, rfl, rfl, hvalue⟩
    | false => exact ih

theorem updates_set {r : Record} {key : Key} {old value : Value} (hget : r.get? key = some old)
    (hold : old.isComplex = false) (hvalue : value.isAssigned = true) : List.Forall₂ Updates r (r.set key value) := by
  induction r with
  | nil => cases hget
  | cons entry r ih =>
    obtain ⟨k, v⟩ := entry
    rw [get?_cons] at hget
    rw [set]
    split at hget
    next hsame =>
      cases hget
      rw [if_pos hsame]
      exact .cons ⟨rfl, .inr ⟨hold, hvalue⟩⟩ (updates_refl r)
    next hsame =>
      rw [if_neg hsame]
      exact .cons (.refl _) (ih hget)

end Record

namespace Store

@[simp]
theorem size_set (store : Store) (id : StructId) (key : Key) (value : Value) :
    (store.set id key value).structs.size = store.structs.size := by simp [set]

/-- The keys lead from one struct to another, all through entries that hold structs. -/
inductive Leads (store : Store) : StructId → List Key → StructId → Prop where
  | here {id} : Leads store id [] id
  | down {id key next keys last} : (store.record id).get? key = some (.struct next) → Leads store next keys last →
      Leads store id (key :: keys) last

end Store

theorem descend_cons {store : Store} {v w : Value} {key : Key} {keys : List Key}
    (h : descend store v (key :: keys) = .ok (some w)) :
    ∃ id next, v = .struct id ∧ (store.record id).get? key = some next ∧ descend store next keys = .ok (some w) := by
  unfold descend at h
  split at h
  next id =>
    split at h
    next next hnext => exact ⟨id, next, rfl, hnext, h⟩
    next => cases h
  next => cases h

/-- **The way to what is read**: the keys but the last lead to a struct, which holds it under the last one. -/
theorem leads_of_descend {store : Store} {current : Value} {root : StructId} {first : Key} {rest : List Key} {v : Value}
    (hfirst : (store.record root).get? first = some v) (hdescend : descend store v rest = .ok (some current)) :
    ∃ container last, store.Leads root (first :: rest).dropLast container ∧ (first :: rest).getLast? = some last ∧
      (store.record container).get? last = some current := by
  induction rest generalizing root first v with
  | nil =>
    cases hdescend
    exact ⟨root, first, .here, rfl, hfirst⟩
  | cons key rest ih =>
    obtain ⟨id, next, rfl, hnext, hdescend⟩ := descend_cons hdescend
    obtain ⟨container, last, hleads, hlast, hget⟩ := ih hnext hdescend
    exact ⟨container, last, .down hfirst hleads, by rw [List.getLast?_cons_cons, hlast], hget⟩

/-! ## Sessions -/

namespace Session

/-- Every scope has its struct. -/
def HasScopes (s : Session) : Prop := Scope.named.length ≤ s.store.structs.size

theorem new_hasScopes (settings : Settings) (limited : Bool) : (new settings limited).HasScopes := by
  simp [HasScopes, new]

/-- The structs that an evaluation from `s` on may give new entries: the variables, and those it makes itself. -/
def Accepts (s : Session) (id : StructId) : Prop := id = scopeId .vars ∨ s.store.structs.size ≤ id.index

/-- What new entries hold: what assignments store, or a struct made between `s` and `t`. -/
def MadeUntil (s t : Session) (v : Value) : Prop :=
  v.isAssigned = true ∨
    ∃ id : StructId, v = .struct id ∧ s.store.structs.size ≤ id.index ∧ id.index < t.store.structs.size

/-- **What an evaluation that begins in `s` may end in.** -/
structure MayBecome (s t : Session) : Prop where
  size_le : s.store.structs.size ≤ t.store.structs.size
  items : ∀ id, t.store.items id = s.store.items id
  records : ∀ id, ∃ kept added, t.store.record id = kept ++ added ∧
    List.Forall₂ Record.Updates (s.store.record id) kept ∧ ∀ entry ∈ added, s.Accepts id ∧ s.MadeUntil t entry.2

theorem SameContents.mayBecome {s t : Session} (h : SameContents s t)
    (hsize : s.store.structs.size ≤ t.store.structs.size) : MayBecome s t where
  size_le := hsize
  items := h.2
  records id := ⟨s.store.record id, [], by rw [h.1 id, List.append_nil], Record.updates_refl _, by simp⟩

namespace MayBecome

variable {s t u : Session}

theorem refl (s : Session) : MayBecome s s := (sameContents_readFrame.refl s).mayBecome (Nat.le_refl _)

theorem madeUntil (h : MayBecome t u) {v : Value} (hv : s.MadeUntil t v) : s.MadeUntil u v := by
  rcases hv with hassigned | ⟨id, rfl, hle, hlt⟩
  · exact .inl hassigned
  · exact .inr ⟨id, rfl, hle, Nat.lt_of_lt_of_le hlt h.size_le⟩

theorem trans (hst : MayBecome s t) (htu : MayBecome t u) : MayBecome s u where
  size_le := Nat.le_trans hst.size_le htu.size_le
  items id := (htu.items id).trans (hst.items id)
  records id := by
    obtain ⟨kept, added, hrecord, hkept, hadded⟩ := hst.records id
    obtain ⟨kept', added', hrecord', hkept', hadded'⟩ := htu.records id
    rw [hrecord] at hkept'
    -- what was added first is among what is kept afterwards
    have hfirst := List.forall₂_take kept.length hkept'
    have hsecond := List.forall₂_drop kept.length hkept'
    rw [List.take_left] at hfirst
    rw [List.drop_left] at hsecond
    refine ⟨kept'.take kept.length, kept'.drop kept.length ++ added', ?_, Record.updates_trans hkept hfirst, ?_⟩
    · rw [← List.append_assoc, List.take_append_drop, hrecord']
    · intro entry hentry
      rcases List.mem_append.1 hentry with hentry | hentry
      · obtain ⟨old, hold, -, hvalue⟩ := Record.exists_of_mem_updated hsecond hentry
        obtain ⟨haccepts, hmade⟩ := hadded old hold
        refine ⟨haccepts, ?_⟩
        rcases hvalue with hsame | ⟨-, hassigned⟩
        · rw [hsame]
          exact htu.madeUntil hmade
        · exact .inl hassigned
      · obtain ⟨haccepts, hmade⟩ := hadded' entry hentry
        refine ⟨haccepts.imp_right (Nat.le_trans hst.size_le), hmade.imp_right ?_⟩
        rintro ⟨new, hnew, hle, hlt⟩
        exact ⟨new, hnew, Nat.le_trans hst.size_le hle, hlt⟩

theorem readFrame : Eval.ReadFrame MayBecome where
  refl := refl
  trans := trans
  newStruct s := by
    have hsize : (Eval.newStruct.run s).2.store.structs.size = s.store.structs.size + 1 := Array.size_push _
    exact (sameContents_readFrame.newStruct s).mayBecome (by omega)
  newArray s := (sameContents_readFrame.newArray s).mayBecome (Nat.le_refl _)
  mark text s := (sameContents_readFrame.mark text s).mayBecome (Nat.le_refl _)

theorem hasScopes (h : MayBecome s t) (hscopes : s.HasScopes) : t.HasScopes := Nat.le_trans hscopes h.size_le

/-- **What was under a key still is, or a number or a text took the place of a value without a handle.** -/
theorem get?_eq_some (h : MayBecome s t) {id : StructId} {key : Key} {v : Value}
    (hv : (s.store.record id).get? key = some v) :
    ∃ w, (t.store.record id).get? key = some w ∧ (w = v ∨ v.isComplex = false ∧ w.isAssigned = true) := by
  obtain ⟨kept, added, hrecord, hkept, -⟩ := h.records id
  rcases Record.get?_of_updates hkept key with ⟨hnone, -⟩ | ⟨k, v', w, hv', hw, hupdates⟩
  · rw [hv] at hnone
    cases hnone
  · cases hv.symm.trans hv'
    refine ⟨w, ?_, hupdates.2⟩
    rw [hrecord, Record.get?_append, hw]
    rfl

theorem get?_isComplex (h : MayBecome s t) {id : StructId} {key : Key} {v : Value}
    (hv : (s.store.record id).get? key = some v) (hsimple : v.isComplex = false) :
    ∃ w, (t.store.record id).get? key = some w ∧ w.isComplex = false := by
  obtain ⟨w, hw, rfl | ⟨-, hassigned⟩⟩ := h.get?_eq_some hv
  · exact ⟨w, hw, hsimple⟩
  · exact ⟨w, hw, Value.isComplex_of_isAssigned hassigned⟩

/-- **What comes up under a key** that led nowhere before is in a struct that accepts entries, and was made since. -/
theorem of_get?_eq_none (h : MayBecome s t) {id : StructId} {key : Key} (hnone : (s.store.record id).get? key = none)
    {w : Value} (hw : (t.store.record id).get? key = some w) : s.Accepts id ∧ s.MadeUntil t w := by
  obtain ⟨kept, added, hrecord, hkept, hadded⟩ := h.records id
  rcases Record.get?_of_updates hkept key with ⟨-, hkept⟩ | ⟨k, v, w', hv, -, -⟩
  · rw [hrecord, Record.get?_append, hkept, Option.none_or] at hw
    obtain ⟨entry, hentry, rfl⟩ := Option.map_eq_some_iff.1 hw
    exact hadded entry (List.mem_of_find?_eq_some hentry)
  · rw [hnone] at hv
    cases hv

theorem made_of_get? (h : MayBecome s t) {id made : StructId} {key : Key} (hnone : (s.store.record id).get? key = none)
    (hmade : (t.store.record id).get? key = some (.struct made)) :
    s.store.structs.size ≤ made.index ∧ made.index < t.store.structs.size := by
  rcases (h.of_get?_eq_none hnone hmade).2 with hassigned | ⟨_, heq, hle, hlt⟩
  · cases hassigned
  · cases heq
    exact ⟨hle, hlt⟩

theorem leads (h : MayBecome s t) {id last : StructId} {keys : List Key} (hleads : s.store.Leads id keys last) :
    t.store.Leads id keys last := by
  induction hleads with
  | here => exact .here
  | down hget _ ih =>
    obtain ⟨w, hw, rfl | ⟨hsimple, -⟩⟩ := h.get?_eq_some hget
    · exact .down hw ih
    · cases hsimple

/-- **Replacing**: a value without a handle gives way to what assignments store. -/
theorem setEntry_replacing {id : StructId} {key : Key} {old value : Value}
    (hold : (s.store.record id).get? key = some old) (hsimple : old.isComplex = false)
    (hvalue : value.isAssigned = true) : MayBecome s (s.setEntry id key value) where
  size_le := by simp [Session.setEntry]
  items _ := rfl
  records other := by
    rcases s.store.record_set id key value other with hsame | ⟨rfl, hset⟩
    · exact ⟨s.store.record other, [], hsame.trans (List.append_nil _).symm, Record.updates_refl _, by simp⟩
    · refine ⟨_, [], hset.trans (List.append_nil _).symm, Record.updates_set hold hsimple hvalue, by simp⟩

/-- **Adding**: where there was nothing under a key in the beginning, and entries are accepted, anything made since may
be set, whatever is under the key now. -/
theorem setEntry_adding (h : MayBecome s t) {id : StructId} {key : Key} {value : Value} (haccepts : s.Accepts id)
    (hnone : (s.store.record id).get? key = none) (hvalue : s.MadeUntil t value) :
    MayBecome s (t.setEntry id key value) where
  size_le := by simpa [Session.setEntry] using h.size_le
  items := h.items
  records other := by
    have hsize : (t.setEntry id key value).store.structs.size = t.store.structs.size := t.store.size_set id key value
    have hmade : ∀ v, s.MadeUntil t v → s.MadeUntil (t.setEntry id key value) v := fun v hv => by
      unfold MadeUntil
      rw [hsize]
      exact hv
    obtain ⟨kept, added, hrecord, hkept, hadded⟩ := h.records other
    rcases t.store.record_set id key value other with hsame | ⟨rfl, hset⟩
    · exact ⟨kept, added, hsame.trans hrecord, hkept, fun entry hentry =>
        ⟨(hadded entry hentry).1, hmade _ (hadded entry hentry).2⟩⟩
    · have hfree : kept.get? key = none := by
        rcases Record.get?_of_updates hkept key with ⟨-, hkept⟩ | ⟨k, v, w, hv, -, -⟩
        · exact hkept
        · cases hnone.symm.trans hv
      refine ⟨kept, added.set key value, ?_, hkept, fun entry hentry => ⟨haccepts, hmade _ ?_⟩⟩
      · exact hset.trans (by rw [hrecord, Record.set_append hfree])
      · rcases Record.mem_set hentry with hold | rfl
        · exact (hadded entry hold).2
        · exact hvalue

end MayBecome

theorem HasScopes.not_accepts {s : Session} (h : s.HasScopes) {scope : Scope} (hscope : scope.slot ≠ 0) :
    ¬ s.Accepts (scopeId scope) := by
  have hslot : scope.slot < Scope.named.length := by cases scope <;> decide
  rintro (heq | hle)
  · exact hscope (StructId.mk.inj heq)
  · exact absurd (Nat.le_trans h hle) (Nat.not_le.2 hslot)

theorem MayBecome.lookupIn_eq_none {s t : Session} (h : MayBecome s t) (hscopes : s.HasScopes) {scope : Scope} {key : Key}
    (hslot : scope.slot ≠ 0) (hnone : s.lookupIn scope key = none) : t.lookupIn scope key = none := by
  cases hnew : t.lookupIn scope key with
  | none => rfl
  | some w => exact absurd (h.of_get?_eq_none hnone hnew).1 (hscopes.not_accepts hslot)

/-- **A variable keeps its place**: the scopes that are asked for it get no entries. -/
theorem MayBecome.writeTarget_eq {s t : Session} (h : MayBecome s t) (hscopes : s.HasScopes) (scope : Scope)
    (key : Key) : t.writeTarget scope key = s.writeTarget scope key := by
  have hsame : ∀ candidate : Scope, candidate.slot ≠ 0 →
      (t.lookupIn candidate key).isSome = (s.lookupIn candidate key).isSome := by
    intro candidate hslot
    cases hold : s.lookupIn candidate key with
    | some v =>
      obtain ⟨w, hw, -⟩ := h.get?_eq_some hold
      rw [lookupIn, hw]
      rfl
    | none => rw [h.lookupIn_eq_none hscopes hslot hold]
  unfold Session.writeTarget
  rw [hsame .locals (by decide), hsame .arguments (by decide)]

/-- A variable is looked for first where it is written, unless that is among the variables, and it is not there. -/
theorem lookup_eq_or (s : Session) (scope : Scope) (key : Key) :
    s.lookup scope key = (s.store.record (s.writeTarget scope key)).get? key ∨
      s.writeTarget scope key = scopeId .vars ∧ (s.store.record (scopeId .vars)).get? key = none := by
  unfold lookup writeTarget
  by_cases hscope : scope = .undefined
  · subst hscope
    rw [if_pos rfl, if_pos rfl, Scope.searchOrder, List.findSome?_cons]
    cases hlocals : s.lookupIn .locals key with
    | some w => exact .inl hlocals.symm
    | none =>
      rw [List.findSome?_cons]
      cases harguments : s.lookupIn .arguments key with
      | some w => exact .inl harguments.symm
      | none =>
        rw [List.findSome?_cons]
        cases hvars : s.lookupIn .vars key with
        | some w => exact .inl hvars.symm
        | none => exact .inr ⟨rfl, hvars⟩
  · rw [if_neg hscope, if_neg hscope]
    exact .inl rfl

/-- **Where a variable that was found is written**: to where it was found, or among the variables, where it was not. -/
theorem MayBecome.writeTarget {s t : Session} (h : MayBecome s t) (hscopes : s.HasScopes) {scope : Scope} {first : Key}
    {v : Value} (hfound : s.lookup scope first = some v) :
    (s.store.record (t.writeTarget scope first)).get? first = some v ∨
      t.writeTarget scope first = scopeId .vars ∧ (s.store.record (scopeId .vars)).get? first = none := by
  rw [h.writeTarget_eq hscopes]
  rcases s.lookup_eq_or scope first with heq | hvars
  · exact .inl (heq.symm.trans hfound)
  · exact .inr hvars

end Session

/-! ## Assignments -/

namespace Eval

theorem run_bind_end {α β : Type} {P : Session → Prop} {x : Eval α} {f : α → Eval β} {s : Session}
    (hx : P (x.run s).2) (hf : ∀ a t, x.run s = (.ok a, t) → P t → P ((f a).run t).2) : P ((x >>= f).run s).2 := by
  rw [run_bind]
  rcases hr : x.run s with ⟨result, t⟩
  rw [hr] at hx
  cases result with
  | ok a => exact hf a t hr hx
  | error fault => exact hx

theorem run_openPath_append {s : Session} {id container : StructId} {before : List Key}
    (h : s.store.Leads id before container) (last : Key) (keys : List Key) :
    (openPath last id (before ++ keys)).run s = (openPath last container keys).run s := by
  induction h with
  | here => rfl
  | down hnext _ ih =>
    rw [List.cons_append, openPath, run_get_bind]
    simp only [hnext]
    exact ih

theorem run_openPath_of_leads {s : Session} {id container : StructId} {keys : List Key} (last : Key)
    (h : s.store.Leads id keys container) : (openPath last id keys).run s = (.ok container, s) := by
  have hopen := run_openPath_append h last []
  rw [List.append_nil] at hopen
  exact hopen

/-- What is read has been found, and lies below what was found. -/
theorem found_of_run_readDefined {scope : Scope} {first : Key} {rest : List Key} {s t : Session} {current : Value}
    (h : (readDefined scope (first :: rest)).run s = (.ok current, t)) :
    ∃ v, s.lookup scope first = some v ∧ descend s.store v rest = .ok (some current) := by
  obtain ⟨found, u, hread, h⟩ := ok_of_run_bind h
  rw [readPath, run_get_bind] at hread
  cases hlookup : s.lookup scope first with
  | none =>
    rw [hlookup] at hread
    cases hread
    cases h
  | some v =>
    rw [hlookup, run_lift] at hread
    cases found with
    | none => cases h
    | some w =>
      cases h
      exact ⟨v, rfl, congrArg Prod.fst hread⟩

/-- Only a value without a handle is combined with another one, and the new value is a number or a text. -/
theorem of_run_combine {op : Option NumberOp} {current operand : Value} {both : Value × Value} {s t : Session}
    (h : (combine op current operand).run s = (.ok both, t)) : current.isComplex = false ∧ both.2.isAssigned = true := by
  cases op with
  | some op =>
    obtain ⟨before, hbefore, h⟩ := ok_of_run_lift_bind h
    obtain ⟨operand', -, h⟩ := ok_of_run_lift_bind h
    obtain ⟨after, u, -, h⟩ := ok_of_run_bind h
    cases h
    exact ⟨Value.isComplex_of_toDecimal hbefore, rfl⟩
  | none =>
    obtain ⟨before, hbefore, h⟩ := ok_of_run_lift_bind h
    obtain ⟨operand', -, h⟩ := ok_of_run_lift_bind h
    cases h
    exact ⟨Value.isComplex_of_toText hbefore, rfl⟩

end Eval

namespace Session.MayBecome

variable {s t : Session}

/-- **A path that starts where there was nothing** goes through structs made since, and ends where there was nothing. -/
theorem openPath (h : MayBecome s t) (last : Key) {keys : List Key} {id : StructId} (haccepts : s.Accepts id)
    (hnone : (s.store.record id).get? (keys.headD last) = none) :
    MayBecome s ((Eval.openPath last id keys).run t).2 ∧
      ∀ container, ((Eval.openPath last id keys).run t).1 = .ok container →
        s.Accepts container ∧ (s.store.record container).get? last = none := by
  induction keys generalizing id t with
  | nil =>
    refine ⟨h, fun container hcontainer => ?_⟩
    cases hcontainer
    exact ⟨haccepts, hnone⟩
  | cons key keys ih =>
    have hyoung : ∀ new : StructId, s.store.structs.size ≤ new.index →
        s.Accepts new ∧ (s.store.record new).get? (keys.headD last) = none := fun new hnew =>
      ⟨.inr hnew, by rw [Store.record_of_size_le hnew]; rfl⟩
    rw [Eval.openPath, Eval.run_get_bind]
    cases hfound : (t.store.record id).get? key with
    | none =>
      let new : StructId := ⟨t.store.structs.size⟩
      let u : Session := { t with store := (t.store.newStruct []).2 }
      have hnew : Eval.newStruct.run t = (.ok new, u) := rfl
      have hset : (Eval.setEntry id key (.struct new)).run u = (.ok (), u.setEntry id key (.struct new)) := rfl
      have hu : MayBecome s u := h.trans (readFrame.newStruct t)
      have hmade : s.MadeUntil u (.struct new) := .inr ⟨new, rfl, h.size_le, by simp [u, new, Store.newStruct]⟩
      rw [Eval.run_bind_of_ok hnew, Eval.run_bind_of_ok hset]
      exact ih (hu.setEntry_adding haccepts hnone hmade) (hyoung new h.size_le).1 (hyoung new h.size_le).2
    | some v =>
      cases v with
      | struct new =>
        obtain ⟨hle, -⟩ := h.made_of_get? hnone hfound
        exact ih h (hyoung new hle).1 (hyoung new hle).2
      | _ => exact ⟨h, fun container hcontainer => by cases hcontainer⟩

/-- **Writing back what was read.**  From the session in which a value without a handle was read on, whatever happened
since, a number or a text may be written to the same path. -/
theorem writePath (h : MayBecome s t) (hscopes : s.HasScopes) {scope : Scope} {keys : List Key} {current value : Value}
    {s' : Session} (hread : (Eval.readDefined scope keys).run s = (.ok current, s'))
    (hcurrent : current.isComplex = false) (hvalue : value.isAssigned = true) :
    MayBecome s ((Eval.writePath scope keys value).run t).2 := by
  cases keys with
  | nil => exact h
  | cons first rest =>
    obtain ⟨v, hfound, hdescend⟩ := Eval.found_of_run_readDefined hread
    rcases h.writeTarget hscopes hfound with hroot | ⟨htarget, hnone⟩
    · -- the same path again: every struct on it is still there
      obtain ⟨container, last, hleads, hlast, hentry⟩ := leads_of_descend hroot hdescend
      obtain ⟨w, hw, hsimple⟩ := h.get?_isComplex hentry hcurrent
      unfold Eval.writePath
      rw [hlast]
      simp only [List.headD_cons]
      rw [Eval.run_get_bind, Eval.run_bind_of_ok (Eval.run_openPath_of_leads last (h.leads hleads))]
      exact h.trans (setEntry_replacing hw hsimple hvalue)
    · -- found elsewhere: the path begins where there was nothing
      obtain ⟨last, hlast⟩ : ∃ last, (first :: rest).getLast? = some last := ⟨_, List.getLast?_cons⟩
      have hhead : (first :: rest).dropLast.headD last = first := by
        cases rest with
        | nil => exact (Option.some.inj hlast).symm
        | cons _ _ => rfl
      have hopen := h.openPath last (.inl rfl) (by rw [hhead]; exact hnone)
      unfold Eval.writePath
      rw [hlast]
      simp only [List.headD_cons]
      rw [Eval.run_get_bind, htarget]
      refine Eval.run_bind_end hopen.1 (fun container u hrun hu => ?_)
      obtain ⟨haccepts, hfree⟩ := hopen.2 container (congrArg Prod.fst hrun)
      exact hu.setEntry_adding haccepts hfree (.inl hvalue)

end Session.MayBecome

/-! ## Runs -/

/-- The relation between sessions that have all their scopes. -/
theorem Session.mayBecome_readFrame : Eval.ReadFrame fun s t => s.HasScopes → Session.MayBecome s t where
  refl s _ := .refl s
  trans hst htu hscopes := (hst hscopes).trans (htu ((hst hscopes).hasScopes hscopes))
  newStruct s _ := Session.MayBecome.readFrame.newStruct s
  newArray s _ := Session.MayBecome.readFrame.newArray s
  mark text s _ := Session.MayBecome.readFrame.mark text s

/-- **What writing back keeps, every run keeps.**  An assignment writes a number or a text to where it has read a value
without a handle, after whatever its operand did. -/
theorem Visit.keeps_of_writeBack {R : Session → Session → Prop} (hR : Eval.ReadFrame R)
    (hwrite : ∀ {s t s' scope keys current value}, (Eval.readDefined scope keys).run s = (.ok current, s') → R s t →
      current.isComplex = false → value.isAssigned = true → R s ((Eval.writePath scope keys value).run t).2)
    (v : Visit) : R v.session v.run.2 := by
  suffices hwithin : v.Within R fun _ => True from hwithin.1
  -- by the size of the reference; the assignment is taken as a whole, since its write alone may add to a struct that
  -- was made while its operand was resolved
  induction hn : sizeOf v.ref using Nat.strongRecOn generalizing v with
  | _ n ih =>
    subst hn
    have hentered : ∀ c, v.Enters c → c.Within R fun _ => True := fun c hc => ih _ hc.sizeOf_lt c rfl
    refine within_of_carryOut hR v (fun scope members op value kind href hfree => ?_) (fun _ => trivial) hentered
    obtain ⟨r, lenient, s⟩ := v
    cases href
    refine hR.bind (keys_within hR members s fun before m after keys t hsplit hb => ?_) (fun keys t hkeys => ?_)
    · subst hsplit
      exact hentered _ (.assignName hfree hb)
    -- from here on everything is seen from the session in which the variable is read
    refine ⟨?_, fun _ _ => trivial⟩
    have hread : R t ((Eval.readDefined scope keys).run t).2 := hR.readDefined_keeps scope keys t
    refine Eval.run_bind_end hread (fun current u hcurrent hu => ?_)
    have hoperand := (hentered _ (.assignValue hfree hkeys hcurrent)).1
    refine Eval.run_bind_end (hR.trans hu hoperand) (fun operand w _ hw => ?_)
    have hcombine := (hR.combine (G := fun _ => True) (s := w) op current operand).1
    refine Eval.run_bind_end (hR.trans hw hcombine) (fun both x hboth hx => ?_)
    obtain ⟨hsimple, hassigned⟩ := Eval.of_run_combine hboth
    exact Eval.run_bind_end (hwrite hcurrent hx hsimple hassigned) (fun _ _ _ h => h)

/-- **What a run of a visit may do to a session.** -/
theorem Visit.mayBecome (v : Visit) (hscopes : v.session.HasScopes) : v.session.MayBecome v.run.2 :=
  keeps_of_writeBack Session.mayBecome_readFrame
    (fun hread h hsimple hassigned hscopes => (h hscopes).writePath hscopes hread hsimple hassigned) v hscopes

/-! ## Nodes -/

namespace Expr

def isAssign : Expr → Bool
  | assign .. => true
  | _ => false

theorem exists_of_lowerAll {settings : Settings} {es : List Expr} {before after : List Ref} {m : Ref}
    (h : lowerAll settings es = .ok (before ++ m :: after)) :
    ∃ e : Expr, e.nodes ⊆ nodesAll es ∧ e.lower settings = .ok m := by
  induction es generalizing before with
  | nil =>
    rw [lowerAll] at h
    cases before <;> cases h
  | cons e es ih =>
    rw [lowerAll] at h
    obtain ⟨first, rest, hfirst, hrest, hsplit⟩ := ok_of_map₂ h
    rw [nodesAll]
    cases before with
    | nil =>
      cases hsplit
      exact ⟨e, List.subset_append_left _ _, hfirst⟩
    | cons _ before =>
      cases hsplit
      obtain ⟨e', hsub, he'⟩ := ih hrest
      exact ⟨e', List.Subset.trans hsub (List.subset_append_right _ _), he'⟩

/-- What is resolved in the course of an evaluation of a tree: a node of it, or the name of the variable that the word
for null stands for. -/
def Resolves (e : Expr) (settings : Settings) (r : Ref) : Prop :=
  (∃ node : Expr, node.nodes ⊆ e.nodes ∧ node.lower settings = .ok r) ∨ r = .literal (.text "null")

theorem resolves_of_binary {node l r : Expr} {settings : Settings} {a b x : Ref}
    (hnodes : node.nodes = node :: (l.nodes ++ r.nodes)) (hl : l.lower settings = .ok a) (hr : r.lower settings = .ok b)
    (hx : x = a ∨ x = b) : node.Resolves settings x := by
  unfold Resolves
  rw [hnodes]
  rcases hx with rfl | rfl
  · exact .inl ⟨l, fun n hn => by simp [hn], hl⟩
  · exact .inl ⟨r, fun n hn => by simp [hn], hr⟩

theorem resolves_of_unary {node e : Expr} {settings : Settings} {a : Ref} (hnodes : node.nodes = node :: e.nodes)
    (he : e.lower settings = .ok a) : node.Resolves settings a := by
  unfold Resolves
  rw [hnodes]
  exact .inl ⟨e, fun n hn => by simp [hn], he⟩

/-- **A visit of a node enters visits of nodes below it.** -/
theorem resolves_of_enters {e : Expr} {settings : Settings} {v c : Visit} (h : v.Enters c)
    (hv : e.lower settings = .ok v.ref) : e.Resolves settings c.ref := by
  obtain ⟨ref, lenient, s⟩ := v
  cases e with
  | literal lit =>
    rw [lower] at hv
    cases hv
    -- of all constants, only the word for null enters anything
    obtain ⟨value, span⟩ := lit
    cases value with
    | nullWord =>
      dsimp only [Constant.lower] at h
      split at h
      · cases h
      · generalize hmembers : [Ref.literal (.text "null")] = members at h
        cases h with
        | @varOrNullName _ before m after =>
          refine .inr (List.mem_singleton.1 ?_)
          rw [hmembers]
          simp
    | _ => cases h
  | newStruct =>
    rw [lower] at hv
    cases hv
    cases h
  | newArray =>
    rw [lower] at hv
    cases hv
    cases h
  | var scope members span =>
    rw [lower] at hv
    obtain ⟨rs, hmembers, rfl⟩ := ok_of_map hv
    cases h with
    | varName _ =>
      obtain ⟨e', hsub, he'⟩ := exists_of_lowerAll hmembers
      exact .inl ⟨e', fun n hn => by simp [nodes, hsub hn], he'⟩
  | cast e target span =>
    rw [lower] at hv
    obtain ⟨a, he, rfl⟩ := ok_of_map hv
    cases h
    exact resolves_of_unary rfl he
  | concat l r span =>
    rw [lower] at hv
    obtain ⟨a, b, hl, hr, rfl⟩ := ok_of_map₂ hv
    refine resolves_of_binary rfl hl hr ?_
    cases h with
    | concatLeft => exact .inl rfl
    | concatRight _ _ => exact .inr rfl
  | logic op l r span =>
    rw [lower] at hv
    obtain ⟨a, b, hl, hr, rfl⟩ := ok_of_map₂ hv
    refine resolves_of_binary rfl hl hr ?_
    cases h with
    | logicLeft => exact .inl rfl
    | logicRight _ _ _ => exact .inr rfl
  | arith op l r span =>
    rw [lower] at hv
    obtain ⟨a, b, hl, hr, rfl⟩ := ok_of_map₂ hv
    refine resolves_of_binary rfl hl hr ?_
    cases h with
    | arithLeft _ => exact .inl rfl
    | arithRight _ _ _ => exact .inr rfl
  | decision op l r span =>
    rw [lower] at hv
    obtain ⟨a, b, hl, hr, rfl⟩ := ok_of_map₂ hv
    refine resolves_of_binary rfl hl hr ?_
    cases h with
    | decisionLeft => exact .inl rfl
    | decisionRight _ => exact .inr rfl
  | not e span =>
    rw [lower] at hv
    obtain ⟨a, he, rfl⟩ := ok_of_map hv
    cases h
    exact resolves_of_unary rfl he
  | signed op e span =>
    rw [lower] at hv
    obtain ⟨a, he, rfl⟩ := ok_of_map hv
    cases h
    exact resolves_of_unary rfl he
  | assign scope members varSpan op value kind span =>
    rw [lower] at hv
    split at hv
    · cases hv
    obtain ⟨rs, a, hmembers, hvalue, rfl⟩ := ok_of_map₂ hv
    cases h with
    | assignName _ _ =>
      obtain ⟨e', hsub, he'⟩ := exists_of_lowerAll hmembers
      exact .inl ⟨e', fun n hn => by simp [nodes, hsub hn], he'⟩
    | assignValue _ _ _ => exact .inl ⟨value, fun n hn => by simp [nodes, hn], hvalue⟩
  | conditional c l r span =>
    rw [lower] at hv
    obtain ⟨a, hc, hv⟩ := ok_of_bind hv
    obtain ⟨b, d, hl, hr, rfl⟩ := ok_of_map₂ hv
    cases h with
    | condition => exact .inl ⟨c, fun n hn => by simp [nodes, hn], hc⟩
    | @branch _ _ _ _ _ _ chosen _ _ _ =>
      cases chosen with
      | true => exact .inl ⟨l, fun n hn => by simp [nodes, hn], hl⟩
      | false => exact .inl ⟨r, fun n hn => by simp [nodes, hn], hr⟩
  | elvis scope members varSpan r span =>
    rw [lower] at hv
    obtain ⟨rs, a, hmembers, hr, rfl⟩ := ok_of_map₂ hv
    cases h with
    | elvisLeft =>
      refine .inl ⟨.var scope members varSpan, fun n hn => ?_, by rw [lower, hmembers]; rfl⟩
      simp only [nodes, List.mem_cons, List.mem_append] at hn ⊢
      exact .inr (hn.imp_right .inl)
    | elvisRight _ _ => exact .inl ⟨r, fun n hn => by simp [nodes, hn], hr⟩

/-- **Only nodes of the tree are visited.** -/
theorem Reaches.resolves {e : Expr} {s : Session} {v : Visit} (h : e.Reaches s v) : e.Resolves s.settings v.ref := by
  obtain ⟨r, hlower, h⟩ := h
  induction h with
  | refl => exact .inl ⟨e, List.Subset.refl _, hlower⟩
  | tail _ hstep ih =>
    rcases ih with ⟨node, hsub, hnode⟩ | hname
    · rcases resolves_of_enters hstep hnode with ⟨below, hsub', hbelow⟩ | hname
      · exact .inl ⟨below, List.Subset.trans hsub' hsub, hbelow⟩
      · exact .inr hname
    · rename_i v c _
      obtain ⟨r, lenient, t⟩ := v
      cases hname
      cases hstep

theorem isAssign_of_lower {e : Expr} {settings : Settings} {scope : Scope} {members : List Ref} {op : Option NumberOp}
    {value : Ref} {kind : AssignKind} (h : e.lower settings = .ok (.assign scope members op value kind)) :
    e.isAssign = true := by
  cases e with
  | assign => rfl
  | literal lit =>
    rw [lower] at h
    obtain ⟨constant, span⟩ := lit
    cases constant with
    | nullWord => cases hnull : settings.nullSupport <;> simp [Constant.lower, hnull, pure, Except.pure] at h
    | _ => cases h
  | newStruct | newArray =>
    rw [lower] at h
    cases h
  | var | cast | not | signed =>
    rw [lower] at h
    obtain ⟨_, _, h⟩ := ok_of_map h
    cases h
  | concat | logic | arith | decision | elvis =>
    rw [lower] at h
    obtain ⟨_, _, _, _, h⟩ := ok_of_map₂ h
    cases h
  | conditional =>
    rw [lower] at h
    obtain ⟨_, _, h⟩ := ok_of_bind h
    obtain ⟨_, _, _, _, h⟩ := ok_of_map₂ h
    cases h

/-- Without an assignment in the tree nothing is written. -/
theorem Reaches.not_writes {e : Expr} {s : Session} {v : Visit} (h : e.Reaches s v)
    (hassigns : ∀ node ∈ e.nodes, node.isAssign = false) (scope : Scope) (keys : List Key) (value : Value) (t : Session) :
    ¬ v.Writes scope keys value t := by
  intro hwrites
  have hresolves := h.resolves
  cases hwrites with
  | assign =>
    rcases hresolves with ⟨node, hsub, hnode⟩ | hname
    · have hnone := hassigns node (hsub node.self_mem_nodes)
      rw [isAssign_of_lower hnode] at hnone
      cases hnone
    · cases hname

theorem evaluate_mayBecome (e : Expr) (s : Session) (hscopes : s.HasScopes) : s.MayBecome (e.evaluate s).2 := by
  cases hlower : e.lower s.settings with
  | error failure =>
    rw [evaluate_of_lower_error hlower]
    exact .refl s
  | ok r =>
    rw [evaluate_of_lower_ok hlower]
    exact Visit.mayBecome ⟨r, false, s⟩ hscopes

theorem evaluate_sameContents (e : Expr) (s : Session) (hassigns : ∀ node ∈ e.nodes, node.isAssign = false) :
    s.SameContents (e.evaluate s).2 := by
  cases hlower : e.lower s.settings with
  | error failure =>
    rw [evaluate_of_lower_error hlower]
    exact Session.sameContents_readFrame.refl s
  | ok r =>
    rw [evaluate_of_lower_ok hlower]
    have hwithin : Visit.Within Session.SameContents (fun _ => True) ⟨r, false, s⟩ := by
      refine Visit.within_of_reached Session.sameContents_readFrame _ ?_ (fun _ _ _ => trivial)
      intro v hv scope keys value t hwrites
      exact absurd hwrites (Reaches.not_writes ⟨r, hlower, hv⟩ hassigns scope keys value t)
    exact hwithin.1

/-- **What an evaluation changes**, whether it fails or not.  Every struct that was there keeps all its entries, in their
places and under keys of the same spelling; an entry keeps its value, unless one without a handle gives way to a number
or a text.  Only the variables get new entries, which hold numbers, texts and structs that the evaluation made.  Arrays
keep their items.  A tree without assignments changes no entry at all. -/
theorem evaluate_effects (e : Expr) (s : Session) (hscopes : s.HasScopes) :
    (∀ id : StructId, id.index < s.store.structs.size → ∃ kept added : Record,
      (e.evaluate s).2.store.record id = kept ++ added ∧
      List.Forall₂ (fun old new => new.1 = old.1 ∧
        (new.2 = old.2 ∨ old.2.isComplex = false ∧ new.2.isAssigned = true)) (s.store.record id) kept ∧
      ∀ entry ∈ added, id = Session.scopeId .vars ∧ (entry.2.isAssigned = true ∨
        ∃ made : StructId, entry.2 = .struct made ∧ s.store.structs.size ≤ made.index ∧
          made.index < (e.evaluate s).2.store.structs.size)) ∧
    (∀ id, (e.evaluate s).2.store.items id = s.store.items id) ∧
    ((∀ node ∈ e.nodes, node.isAssign = false) → ∀ id, (e.evaluate s).2.store.record id = s.store.record id) := by
  have hbecome := e.evaluate_mayBecome s hscopes
  refine ⟨fun id hid => ?_, hbecome.items, fun hassigns => (e.evaluate_sameContents s hassigns).1⟩
  obtain ⟨kept, added, hrecord, hkept, hadded⟩ := hbecome.records id
  refine ⟨kept, added, hrecord, hkept, fun entry hentry => ?_⟩
  obtain ⟨haccepts, hmade⟩ := hadded entry hentry
  exact ⟨haccepts.resolve_right (Nat.not_le.2 hid), hmade⟩

end Expr

/-- A session in which `a.b` is found in another scope than it is written to. -/
def Session.withAB : Session :=
  let s := Session.new {} false
  { s with store := (s.store.newStruct [(⟨"b"⟩, .text "t")]).2.set (scopeId .cgi) ⟨"a"⟩ (.struct ⟨Scope.named.length⟩) }

/-- Joins `x` to `a.b`. -/
def Expr.joinAB : Expr :=
  .mkAssign (.ofNames .undefined [.literal ⟨.string "a", none⟩, .literal ⟨.string "b", none⟩] none) none
    (.literal ⟨.string "x", none⟩) .pre none

/-- The joined text goes into a new struct among the variables, and no other struct gets an entry. -/
theorem Expr.joinAB_effects :
    Session.withAB.HasScopes ∧
    (joinAB.evaluate .withAB).2.store.record (Session.scopeId .vars) = [(⟨"a"⟩, .struct ⟨Scope.named.length + 1⟩)] ∧
    (joinAB.evaluate .withAB).2.store.record ⟨Scope.named.length + 1⟩ = [(⟨"b"⟩, .text "tx")] ∧
    ∀ id : StructId, id.index < Session.withAB.store.structs.size → id ≠ Session.scopeId .vars →
      ((joinAB.evaluate .withAB).2.store.record id).length = (Session.withAB.store.record id).length := by
  have hscopes : Session.withAB.HasScopes := Nat.le_trans (Session.new_hasScopes {} false) (by decide)
  refine ⟨hscopes, by decide +kernel, by decide +kernel, fun id hid hvars => ?_⟩
  obtain ⟨kept, added, hrecord, hkept, hadded⟩ := (evaluate_effects joinAB .withAB hscopes).1 id hid
  cases added with
  | nil => rw [hrecord, List.append_nil, hkept.length_eq]
  | cons entry added => exact absurd (hadded entry List.mem_cons_self).1 hvars

end LooseExpr
