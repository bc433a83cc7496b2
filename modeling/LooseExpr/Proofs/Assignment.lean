import LooseExpr.Proofs.Code.Interning
import LooseExpr.Proofs.Effects
import Mathlib.Logic.Function.Basic
/-!
# Assignments

An assignment reads its variable, resolves its operand and writes.  If it fails, it has written nothing, because the
write itself never fails: what could be read can be written, whatever the operand did in between.

That is plain for a variable that is written to where it was found, since no struct is ever taken off a path.  A variable
without a scope may be found in one scope and written to another, the variables, and there the operand may have put
something of the same name.  But it can only have done so in the same way, after finding the variable in the same place.
So what comes up among the variables mirrors what was found: a struct stands for a struct, and a number or a text for a
value without a handle.  `Session.Mirrors` says so of two sessions, and it holds along every run (`Visit.mirrors`).
-/
namespace LooseExpr

/-! ## Entries and paths -/

theorem Store.index_lt_of_get? {store : Store} {id : StructId} {key : Key} {v : Value}
    (h : (store.record id).get? key = some v) : id.index < store.structs.size := by
  by_contra hle
  rw [record_of_size_le (Nat.le_of_not_lt hle)] at h
  cases h

/-- An entry that is there after one was set: it was there before, or it is the one. -/
theorem Store.of_get?_set {store : Store} {id other : StructId} {key key' : Key} {value new : Value}
    (h : ((store.set id key value).record other).get? key' = some new) :
    (store.record other).get? key' = some new ∨ other = id ∧ key.same key' = true ∧ new = value := by
  rcases store.record_set id key value other with hsame | ⟨rfl, hset⟩
  · exact .inl (hsame ▸ h)
  · rw [hset, Record.get?_set] at h
    by_cases hkey : key.same key' = true
    · rw [if_pos hkey] at h
      exact .inr ⟨rfl, hkey, (Option.some.inj h).symm⟩
    · rw [if_neg hkey] at h
      exact .inl h

theorem Store.get?_set {store : Store} {id : StructId} (h : id.index < store.structs.size) (other : StructId)
    (key key' : Key) (value : Value) : ((store.set id key value).record other).get? key' =
      if other = id ∧ key.same key' = true then some value else (store.record other).get? key' := by
  by_cases hother : other = id
  · subst hother
    have hset : (store.set other key value).record other = (store.record other).set key value := by
      simp [record, set, Array.getElem_modify, h]
    rw [hset, Record.get?_set]
    simp
  · rcases store.record_set id key value other with hsame | ⟨heq, -⟩
    · rw [hsame, if_neg (fun hentry => hother hentry.1)]
    · exact absurd heq hother

theorem Store.get?_set_self {store : Store} {id : StructId} (h : id.index < store.structs.size) (key : Key)
    (value : Value) : ((store.set id key value).record id).get? key = some value := by
  rw [get?_set h, if_pos ⟨rfl, key.same_refl⟩]

/-- Setting an entry that holds no struct takes nothing off a path. -/
theorem Store.Leads.set {store : Store} {id last target : StructId} {keys : List Key} (h : store.Leads id keys last)
    {key : Key} (hentry : ∀ next, (store.record target).get? key ≠ some (.struct next)) (value : Value) :
    (store.set target key value).Leads id keys last := by
  induction h with
  | here => exact .here
  | @down id k next keys last hnext _ ih =>
    refine .down ?_ ih
    rcases store.record_set target key value id with hsame | ⟨rfl, hset⟩
    · rw [hsame, hnext]
    · have hkey : ¬ key.same k = true := fun hkey => hentry next (by rw [Record.get?_congr hkey, hnext])
      rw [hset, Record.get?_set, if_neg hkey, hnext]

/-- **What lies at the end of a path can be read.** -/
theorem descend_of_leads {store : Store} {root container : StructId} {first last : Key} {rest : List Key}
    {value : Value} (hleads : store.Leads root (first :: rest).dropLast container)
    (hlast : (first :: rest).getLast? = some last) (hentry : (store.record container).get? last = some value) :
    ∃ v, (store.record root).get? first = some v ∧ descend store v rest = .ok (some value) := by
  induction rest generalizing root first with
  | nil =>
    cases hleads
    cases hlast
    exact ⟨value, hentry, rfl⟩
  | cons key rest ih =>
    rw [List.getLast?_cons_cons] at hlast
    cases hleads with
    | @down _ _ next _ _ hnext hleads =>
      obtain ⟨v, hv, hdescend⟩ := ih hleads hlast
      refine ⟨.struct next, hnext, ?_⟩
      simp only [descend, hv]
      exact hdescend

namespace Session

/-- What is in the struct that a variable is written into is what is found. -/
theorem lookup_of_writeTarget {s : Session} {scope : Scope} {key : Key} {v : Value}
    (h : (s.store.record (s.writeTarget scope key)).get? key = some v) : s.lookup scope key = some v := by
  rcases s.lookup_eq_or scope key with heq | ⟨hvars, hnone⟩
  · rw [heq, h]
  · rw [hvars, hnone] at h
    cases h

end Session

namespace Eval

/-- **What has been written to a path is read from it.** -/
theorem run_readDefined_of_leads {s : Session} {scope : Scope} {first last : Key} {rest : List Key}
    {container : StructId} {value : Value}
    (hleads : s.store.Leads (s.writeTarget scope first) (first :: rest).dropLast container)
    (hlast : (first :: rest).getLast? = some last) (hentry : (s.store.record container).get? last = some value) :
    (readDefined scope (first :: rest)).run s = (.ok value, s) := by
  obtain ⟨v, hv, hdescend⟩ := descend_of_leads hleads hlast hentry
  have hread : (readPath scope (first :: rest)).run s = (.ok (some value), s) := by
    rw [readPath, run_get_bind, Session.lookup_of_writeTarget hv]
    exact (run_lift _ s).trans (by rw [hdescend])
  unfold readDefined
  rw [run_bind_of_ok hread]
  rfl

/-- Opening a path replaces nothing. -/
theorem get?_of_run_openPath {last : Key} {keys : List Key} {id container : StructId} {s t : Session}
    (h : (openPath last id keys).run s = (.ok container, t)) {other : StructId} {key : Key} {v : Value}
    (hv : (s.store.record other).get? key = some v) : (t.store.record other).get? key = some v := by
  induction keys generalizing id s with
  | nil =>
    cases h
    exact hv
  | cons k keys ih =>
    rw [openPath, run_get_bind] at h
    split at h
    next next hnext => exact ih h hv
    next => cases h
    next hnone =>
      let made : StructId := ⟨s.store.structs.size⟩
      let s' : Session := (newStruct.run s).2
      have hmade : newStruct.run s = (.ok made, s') := rfl
      have hset : (setEntry id k (.struct made)).run s' = (.ok (), s'.setEntry id k (.struct made)) := rfl
      have hsame : s'.store.record = s.store.record := funext (Session.sameContents_readFrame.newStruct s).1
      rw [run_bind_of_ok hmade, run_bind_of_ok hset] at h
      refine ih h ?_
      rw [Session.setEntry]
      rcases s'.store.record_set id k (.struct made) other with hother | ⟨rfl, hentry⟩
      · rw [hother, hsame, hv]
      · have hkey : ¬ k.same key = true := fun hkey => by
          rw [Record.get?_congr hkey, hv] at hnone
          cases hnone
        rw [hentry, Record.get?_set, if_neg hkey, hsame, hv]

end Eval

/-! ## What new entries stand for -/

namespace Session

/-- What a new entry stands for, as it was in `s`: among the variables, what is found without a scope; in a struct made
since, the entry of the struct that it was made for. -/
def original (s : Session) (origin : StructId → StructId) (id : StructId) (key : Key) : Option Value :=
  if id = scopeId .vars then s.lookup .undefined key else (s.store.record (origin id)).get? key

/-- A number or a text for a value without a handle, or a struct for the one it was made for. -/
def StandsFor (origin : StructId → StructId) (old new : Value) : Prop :=
  old.isComplex = false ∧ new.isAssigned = true ∨ ∃ made, new = .struct made ∧ old = .struct (origin made)

/-- **What came up between `s` and `t` stands for what was found.** -/
def Mirrors (s t : Session) (origin : StructId → StructId) : Prop :=
  ∀ id key old new, (s.store.record id).get? key = none → (t.store.record id).get? key = some new →
    s.original origin id key = some old → StandsFor origin old new

theorem lookup_congr {key key' : Key} (h : key.same key' = true) (s : Session) (scope : Scope) :
    s.lookup scope key = s.lookup scope key' := by
  unfold lookup lookupIn
  simp only [Record.get?_congr h]

theorem original_congr {key key' : Key} (h : key.same key' = true) (s : Session) (origin : StructId → StructId)
    (id : StructId) : s.original origin id key = s.original origin id key' := by
  unfold original
  rw [lookup_congr h, Record.get?_congr h]

variable {s t u : Session} {origin : StructId → StructId}

theorem SameContents.mirrors (h : SameContents s t) (origin : StructId → StructId) : Mirrors s t origin := by
  intro id key old new hnone hnew _
  rw [h.1, hnone] at hnew
  cases hnew

/-- A variable that is found without a scope is found again, unless the variables have got one of its name. -/
theorem MayBecome.lookup (h : MayBecome s t) (hscopes : s.HasScopes) {key : Key} {old : Value}
    (hold : s.lookup .undefined key = some old) (hvars : t.lookupIn .vars key = none) :
    ∃ new, t.lookup .undefined key = some new ∧ (new = old ∨ old.isComplex = false ∧ new.isAssigned = true) := by
  have hnone : ∀ scope : Scope, s.lookupIn scope key = none → t.lookupIn scope key = none := by
    intro scope hnone
    by_cases hslot : scope.slot = 0
    · have hid : scopeId scope = scopeId .vars := congrArg StructId.mk hslot
      unfold lookupIn
      rw [hid]
      exact hvars
    · exact h.lookupIn_eq_none hscopes hslot hnone
  have hsearch : ∀ s : Session,
      s.lookup .undefined key = Scope.searchOrder.findSome? fun scope => s.lookupIn scope key := fun _ => if_pos rfl
  rw [hsearch] at hold ⊢
  generalize Scope.searchOrder = scopes at hold ⊢
  induction scopes with
  | nil => cases hold
  | cons scope scopes ih =>
    rw [List.findSome?_cons] at hold ⊢
    cases hfound : s.lookupIn scope key with
    | some v =>
      rw [hfound] at hold
      cases hold
      obtain ⟨new, hnew, hkept⟩ := h.get?_eq_some hfound
      exact ⟨new, by rw [lookupIn, hnew], hkept⟩
    | none =>
      rw [hfound] at hold
      rw [hnone scope hfound]
      exact ih hold

theorem HasScopes.scopeId_lt (h : s.HasScopes) (scope : Scope) : (scopeId scope).index < s.store.structs.size := by
  have hslot : scope.slot < Scope.named.length := by cases scope <;> decide
  exact Nat.lt_of_lt_of_le hslot h

/-- **One stretch of a run after another**: the structs made in either keep what they stand for. -/
theorem Mirrors.trans {origin' : StructId → StructId} (hscopes : s.HasScopes) (hst : MayBecome s t) (htu : MayBecome t u)
    (h : Mirrors s t origin) (h' : Mirrors t u origin') :
    Mirrors s u fun id => if id.index < t.store.structs.size then origin id else origin' id := by
  intro id key old new hnone hnew hold
  dsimp only [original] at hold
  cases hmid : (t.store.record id).get? key with
  | some mid =>
    -- it was there in between
    rw [if_pos (Store.index_lt_of_get? hmid)] at hold
    obtain ⟨new', hnew', hkept⟩ := htu.get?_eq_some hmid
    cases hnew.symm.trans hnew'
    rcases h id key old mid hnone hmid hold with ⟨hsimple, hassigned⟩ | ⟨made, rfl, rfl⟩
    · refine .inl ⟨hsimple, ?_⟩
      rcases hkept with rfl | ⟨-, hassigned'⟩
      · exact hassigned
      · exact hassigned'
    · rcases hkept with rfl | ⟨hsimple, -⟩
      · have hlt := (hst.made_of_get? hnone hmid).2
        exact .inr ⟨made, rfl, by simp only [if_pos hlt]⟩
      · cases hsimple
  | none =>
    -- it came up in the second stretch, and what it stands for may have been a new value already
    have haccepts := (htu.of_get?_eq_none hmid hnew).1
    obtain ⟨mid, horiginal, hkept⟩ : ∃ mid, t.original origin' id key = some mid ∧
        (mid = old ∨ old.isComplex = false ∧ mid.isAssigned = true) := by
      unfold original
      by_cases hvars : id = scopeId .vars
      · rw [if_pos hvars] at hold ⊢
        subst hvars
        exact hst.lookup hscopes hold hmid
      · have hle := haccepts.resolve_left hvars
        rw [if_neg hvars, if_neg (Nat.not_lt.2 hle)] at hold
        rw [if_neg hvars]
        exact hst.get?_eq_some hold
    rcases h' id key mid new hmid hnew horiginal with ⟨hsimple, hassigned⟩ | ⟨made, rfl, rfl⟩
    · refine .inl ⟨?_, hassigned⟩
      rcases hkept with rfl | ⟨hsimple', -⟩
      · exact hsimple
      · exact hsimple'
    · rcases hkept with rfl | ⟨-, hassigned⟩
      · have hle := (htu.made_of_get? hmid hnew).1
        exact .inr ⟨made, rfl, by simp only [if_neg (Nat.not_lt.2 hle)]⟩
      · cases hassigned

/-- Setting an entry to something that stands for what it should. -/
theorem Mirrors.setEntry (h : Mirrors s t origin) {id : StructId} {key : Key} {old value : Value}
    (hold : s.original origin id key = some old) (hstands : StandsFor origin old value) :
    Mirrors s (t.setEntry id key value) origin := by
  intro id' key' old' new hnone hnew hold'
  rcases Store.of_get?_set hnew with hbefore | ⟨rfl, hkey, rfl⟩
  · exact h id' key' old' new hnone hbefore hold'
  · rw [← original_congr hkey, hold] at hold'
    cases hold'
    exact hstands

/-- Replacing an entry brings up none. -/
theorem mirrors_replacing {id : StructId} {key : Key} {old : Value} (hold : (s.store.record id).get? key = some old)
    (value : Value) (origin : StructId → StructId) : Mirrors s (s.setEntry id key value) origin := by
  intro id' key' _ new hnone hnew _
  rcases Store.of_get?_set hnew with hbefore | ⟨rfl, hkey, -⟩
  · cases hnone.symm.trans hbefore
  · rw [← Record.get?_congr hkey, hold] at hnone
    cases hnone

/-- A struct is made for another one. -/
theorem Mirrors.newStruct (h : Mirrors s t origin) (hst : MayBecome s t) (target : StructId) :
    Mirrors s (Eval.newStruct.run t).2 (Function.update origin ⟨t.store.structs.size⟩ target) := by
  intro id key old new hnone hnew hold
  rw [(sameContents_readFrame.newStruct t).1] at hnew
  have hne : ∀ other : StructId, other.index < t.store.structs.size →
      Function.update origin ⟨t.store.structs.size⟩ target other = origin other := fun other hlt =>
    Function.update_of_ne (fun heq => absurd hlt (by rw [heq]; exact Nat.lt_irrefl _)) _ _
  unfold original at hold
  rw [hne id (Store.index_lt_of_get? hnew)] at hold
  rcases h id key old new hnone hnew hold with hsimple | ⟨made, rfl, rfl⟩
  · exact .inl hsimple
  · exact .inr ⟨made, rfl, by rw [hne made (hst.made_of_get? hnone hnew).2]⟩

/-! ## Writing what was read -/

/-- **One step of the way**: a struct that is missing is made for the one that was found there. -/
theorem Mirrors.addStruct (hst : MayBecome s t) (h : Mirrors s t origin) {id target : StructId} {key : Key}
    (haccepts : s.Accepts id) (hin : id.index < t.store.structs.size) (hnone : (s.store.record id).get? key = none)
    (hv : s.original origin id key = some (.struct target)) :
    ∃ made t' u, Eval.newStruct.run t = (.ok made, t') ∧ (Eval.setEntry id key (.struct made)).run t' = (.ok (), u) ∧
      s.store.structs.size ≤ made.index ∧ made.index < u.store.structs.size ∧ MayBecome s u ∧
      Mirrors s u (Function.update origin made target) ∧ (u.store.record id).get? key = some (.struct made) := by
  let made : StructId := ⟨t.store.structs.size⟩
  let t' : Session := (Eval.newStruct.run t).2
  have hsize : t'.store.structs.size = t.store.structs.size + 1 := Array.size_push _
  have hmade : made.index < t'.store.structs.size := by
    rw [hsize]
    exact Nat.lt_succ_self _
  have hin' : id.index < t'.store.structs.size := by
    rw [hsize]
    exact Nat.lt_succ_of_lt hin
  have hv' : s.original (Function.update origin made target) id key = some (.struct target) := by
    rw [← hv, original, original, Function.update_of_ne (fun heq => absurd hin (by rw [heq]; exact Nat.lt_irrefl _))]
  have hstands : StandsFor (Function.update origin made target) (.struct target) (.struct made) :=
    .inr ⟨made, rfl, by rw [Function.update_self]⟩
  refine ⟨made, t', t'.setEntry id key (.struct made), rfl, rfl, hst.size_le, ?_, ?_, ?_, ?_⟩
  · rw [Session.setEntry, Store.size_set]
    exact hmade
  · have hst' : MayBecome s t' := hst.trans (MayBecome.readFrame.newStruct t)
    exact hst'.setEntry_adding haccepts hnone (.inr ⟨made, rfl, hst.size_le, hmade⟩)
  · exact (h.newStruct hst target).setEntry hv' hstands
  · exact Store.get?_set_self hin' key (.struct made)

/-- **A path that could be read can be opened**, where it begins with a new entry: what is missing on it is made, and
what is there stands for a struct. -/
theorem Mirrors.openPath (hscopes : s.HasScopes) (hst : MayBecome s t) (h : Mirrors s t origin) (last : Key)
    {keys : List Key} {id : StructId} {first : Key} {rest : List Key} {v current : Value}
    (hpath : keys ++ [last] = first :: rest) (haccepts : s.Accepts id) (hin : id.index < t.store.structs.size)
    (hnone : (s.store.record id).get? first = none) (hv : s.original origin id first = some v)
    (hdescend : descend s.store v rest = .ok (some current)) :
    ∃ container u origin', (Eval.openPath last id keys).run t = (.ok container, u) ∧ Mirrors s u origin' ∧
      s.original origin' container last = some current ∧ u.store.Leads id keys container ∧
      container.index < u.store.structs.size ∧ (s.store.record container).get? last = none := by
  induction keys generalizing t origin id first rest v with
  | nil =>
    cases hpath
    cases hdescend
    exact ⟨id, t, origin, rfl, h, hv, .here, hin, hnone⟩
  | cons key keys ih =>
    obtain ⟨next, rest', hrest⟩ : ∃ next rest', keys ++ [last] = next :: rest' := List.exists_cons_of_ne_nil (by simp)
    rw [List.cons_append, hrest] at hpath
    cases hpath
    obtain ⟨target, v', rfl, hv', hdescend'⟩ := descend_cons hdescend
    -- below, everything happens in a struct made since, which stands for `target`
    have hbelow : ∀ (origin' : StructId → StructId) (made : StructId), s.store.structs.size ≤ made.index →
        origin' made = target → s.original origin' made next = some v' := fun origin' made hle horigin => by
      have hvars : made ≠ scopeId .vars := fun heq => absurd (hscopes.scopeId_lt .vars) (Nat.not_lt.2 (heq ▸ hle))
      rw [original, if_neg hvars, horigin, hv']
    have hempty : ∀ made : StructId, s.store.structs.size ≤ made.index → (s.store.record made).get? next = none :=
      fun made hle => by rw [Store.record_of_size_le hle]; rfl
    rw [Eval.openPath, Eval.run_get_bind]
    cases hfound : (t.store.record id).get? key with
    | none =>
      obtain ⟨made, t', u, hmade, hset, hle, hlt, hsu, hmirrors, hentry⟩ := h.addStruct hst haccepts hin hnone hv
      rw [Eval.run_bind_of_ok hmade, Eval.run_bind_of_ok hset]
      obtain ⟨container, w, origin', hopen, hw, horiginal, hleads, hcontainer⟩ := ih hsu hmirrors hrest (.inr hle) hlt
        (hempty made hle) (hbelow _ made hle (Function.update_self ..)) hdescend'
      exact ⟨container, w, origin', hopen, hw, horiginal, .down (Eval.get?_of_run_openPath hopen hentry) hleads, hcontainer⟩
    | some w =>
      rcases h id key _ w hnone hfound hv with ⟨hsimple, -⟩ | ⟨made, rfl, htarget⟩
      · cases hsimple
      · cases htarget
        obtain ⟨hle, hlt⟩ := hst.made_of_get? hnone hfound
        obtain ⟨container, u, origin', hopen, hu, horiginal, hleads, hcontainer⟩ :=
          ih hst h hrest (.inr hle) hlt (hempty made hle) (hbelow _ made hle rfl) hdescend'
        exact ⟨container, u, origin', hopen, hu, horiginal, .down (Eval.get?_of_run_openPath hopen hfound) hleads,
          hcontainer⟩

/-- **The path of what was read leads to a place for a number or a text**, whatever happened since. -/
theorem Mirrors.openTarget (hscopes : s.HasScopes) (hst : MayBecome s t) (h : Mirrors s t origin) {scope : Scope}
    {first last : Key} {rest : List Key} {v current : Value} (hfound : s.lookup scope first = some v)
    (hdescend : descend s.store v rest = .ok (some current)) (hcurrent : current.isComplex = false)
    (hlast : (first :: rest).getLast? = some last) :
    ∃ container u, (Eval.openPath last (t.writeTarget scope first) (first :: rest).dropLast).run t = (.ok container, u) ∧
      u.store.Leads (t.writeTarget scope first) (first :: rest).dropLast container ∧
      container.index < u.store.structs.size ∧ (∀ next, (u.store.record container).get? last ≠ some (.struct next)) ∧
      ∀ value : Value, value.isAssigned = true → ∃ origin', Mirrors s (u.setEntry container last value) origin' := by
  rcases hst.writeTarget hscopes hfound with hroot | ⟨htarget, hnone⟩
  · -- the same path again: every struct on it is still there
    obtain ⟨container, last', hleads, hlast', hentry⟩ := leads_of_descend hroot hdescend
    cases hlast.symm.trans hlast'
    obtain ⟨w, hw, hsimple⟩ := hst.get?_isComplex hentry hcurrent
    refine ⟨container, t, Eval.run_openPath_of_leads last (hst.leads hleads), hst.leads hleads, Store.index_lt_of_get? hw, ?_, ?_⟩
    · intro next hnext
      cases hw.symm.trans hnext
      cases hsimple
    · intro value hvalue
      exact ⟨_, h.trans hscopes hst (MayBecome.setEntry_replacing hw hsimple hvalue) (mirrors_replacing hw value origin)⟩
  · -- found elsewhere: what the path goes through among the variables mirrors what was found
    have hlookup : s.original origin (scopeId .vars) first = some v := by
      rw [original, if_pos rfl]
      by_cases hscope : scope = .undefined
      · rw [← hscope]
        exact hfound
      · -- a variable with a scope is written where it was found
        rw [Session.writeTarget, if_neg hscope] at htarget
        rw [lookup, if_neg hscope, lookupIn, htarget, hnone] at hfound
        cases hfound
    obtain ⟨container, u, origin', hopen, hmirrors, horiginal, hleads, hin, hfree⟩ :=
      h.openPath hscopes hst last (List.dropLast_append_getLast? last hlast) (.inl rfl)
        (Nat.lt_of_lt_of_le (hscopes.scopeId_lt .vars) hst.size_le) hnone hlookup hdescend
    rw [htarget]
    refine ⟨container, u, hopen, hleads, hin, ?_, ?_⟩
    · intro next hnext
      rcases hmirrors container last current _ hfree hnext horiginal with ⟨-, hassigned⟩ | ⟨made, -, rfl⟩
      · cases hassigned
      · cases hcurrent
    · intro value hvalue
      exact ⟨origin', hmirrors.setEntry horiginal (.inl ⟨hcurrent, hvalue⟩)⟩

/-- **The write cannot fail.**  From the session in which a value without a handle was read on, whatever happened since,
a number or a text can be written to the same path; it is read from there then, and what has come up stands for what was
found. -/
theorem Mirrors.writePath (hscopes : s.HasScopes) (hst : MayBecome s t) (h : Mirrors s t origin) {scope : Scope}
    {keys : List Key} {current value : Value} {s' : Session}
    (hread : (Eval.readDefined scope keys).run s = (.ok current, s')) (hcurrent : current.isComplex = false)
    (hvalue : value.isAssigned = true) :
    ∃ u origin', (Eval.writePath scope keys value).run t = (.ok (), u) ∧ Mirrors s u origin' ∧
      (Eval.readDefined scope keys).run u = (.ok value, u) := by
  cases keys with
  | nil =>
    -- a scope itself is a struct
    cases hread
    cases hcurrent
  | cons first rest =>
    obtain ⟨v, hfound, hdescend⟩ := Eval.found_of_run_readDefined hread
    obtain ⟨last, hlast⟩ : ∃ last, (first :: rest).getLast? = some last := ⟨_, List.getLast?_cons⟩
    obtain ⟨container, u, hopen, hleads, hin, hentry, hset⟩ :=
      h.openTarget hscopes hst hfound hdescend hcurrent hlast
    obtain ⟨origin', hmirrors⟩ := hset value hvalue
    have hwrite : (Eval.writePath scope (first :: rest) value).run t = (.ok (), u.setEntry container last value) := by
      unfold Eval.writePath
      rw [hlast]
      simp only [List.headD_cons]
      rw [Eval.run_get_bind, Eval.run_bind_of_ok hopen]
      rfl
    have hsu := hst.writePath hscopes hread hcurrent hvalue
    rw [hwrite] at hsu
    refine ⟨_, origin', hwrite, hmirrors, Eval.run_readDefined_of_leads ?_ hlast (Store.get?_set_self hin last value)⟩
    rw [hsu.writeTarget_eq hscopes, ← hst.writeTarget_eq hscopes]
    exact hleads.set hentry value

theorem mirrors_readFrame :
    Eval.ReadFrame fun s t => s.HasScopes → Session.MayBecome s t ∧ ∃ origin, Mirrors s t origin where
  refl s _ := ⟨.refl s, id, (sameContents_readFrame.refl s).mirrors id⟩
  trans hst htu hscopes := by
    obtain ⟨hst, origin, h⟩ := hst hscopes
    obtain ⟨htu, origin', h'⟩ := htu (hst.hasScopes hscopes)
    exact ⟨hst.trans htu, _, h.trans hscopes hst htu h'⟩
  newStruct s _ := ⟨MayBecome.readFrame.newStruct s, id, (sameContents_readFrame.newStruct s).mirrors id⟩
  newArray s _ := ⟨MayBecome.readFrame.newArray s, id, (sameContents_readFrame.newArray s).mirrors id⟩
  mark text s _ := ⟨MayBecome.readFrame.mark text s, id, (sameContents_readFrame.mark text s).mirrors id⟩

end Session

/-- **In every run, what comes up stands for what was found.** -/
theorem Visit.mirrors (v : Visit) (hscopes : v.session.HasScopes) :
    v.session.MayBecome v.run.2 ∧ ∃ origin, v.session.Mirrors v.run.2 origin := by
  refine keeps_of_writeBack Session.mirrors_readFrame (fun hread h hsimple hassigned hscopes => ?_) v hscopes
  obtain ⟨hst, origin, h⟩ := h hscopes
  obtain ⟨u, origin', hwrite, hmirrors, -⟩ := h.writePath hscopes hst hread hsimple hassigned
  refine ⟨hst.writePath hscopes hread hsimple hassigned, origin', ?_⟩
  rw [hwrite]
  exact hmirrors

theorem Ref.keys_mayBecome (members : List Ref) {s : Session} (hscopes : s.HasScopes) :
    s.MayBecome ((Ref.keys members).run s).2 :=
  (Visit.keys_within (G := fun _ => True) Session.mayBecome_readFrame members s
    (fun _ m _ _ t _ _ => ⟨Visit.mayBecome ⟨m, false, t⟩, fun _ _ => trivial⟩)).1 hscopes

/-! ## Assignments as a whole -/

/-- **The old and the new value of an assignment**: numbers, if it calculates, and otherwise texts. -/
inductive Combines (precision : Nat) : Option NumberOp → (current operand old new : Value) → Prop where
  | calculated {op : NumberOp} {current operand : Value} {l r d : Decimal} : current.toDecimal = .ok l →
      operand.toDecimal = .ok r → op.compute l r precision = .ok d →
      Combines precision (some op) current operand (.number l) (.number d)
  | joined {current operand : Value} {l r : String} : current.toText = .ok l → operand.toText = .ok r →
      Combines precision none current operand (.text l) (.text (l ++ r))

namespace Combines

variable {precision : Nat} {op : Option NumberOp} {current operand old new : Value}

theorem isComplex (h : Combines precision op current operand old new) : current.isComplex = false := by
  cases h with
  | calculated hl _ _ => exact Value.isComplex_of_toDecimal hl
  | joined hl _ => exact Value.isComplex_of_toText hl

theorem isAssigned (h : Combines precision op current operand old new) : new.isAssigned = true := by
  cases h <;> rfl

end Combines

namespace Eval

theorem session_readDefined (scope : Scope) (keys : List Key) (s : Session) : ((readDefined scope keys).run s).2 = s := by
  have hpath : ((readPath scope keys).run s).2 = s := by
    cases keys with
    | nil => rfl
    | cons first rest =>
      rw [readPath, run_get_bind]
      split <;> rfl
  refine run_bind_end (P := fun t => t = s) hpath (fun found t _ ht => ?_)
  cases found <;> exact ht

theorem session_combine (op : Option NumberOp) (current operand : Value) (s : Session) :
    ((combine op current operand).run s).2 = s := by
  cases op with
  | some op =>
    refine run_bind_end (P := fun t => t = s) rfl (fun before t _ ht => ?_)
    refine run_bind_end (P := fun t => t = s) ht (fun operand' t _ ht => ?_)
    exact run_bind_end (P := fun t => t = s) ht (fun _ _ _ ht => ht)
  | none =>
    refine run_bind_end (P := fun t => t = s) rfl (fun before t _ ht => ?_)
    exact run_bind_end (P := fun t => t = s) ht (fun _ _ _ ht => ht)

/-- A computation that leaves the session alone. -/
theorem ends_of_session {α : Type} {x : Eval α} {s : Session} (h : (x.run s).2 = s) :
    (∃ fault, x.run s = (.error fault, s)) ∨ ∃ a, x.run s = (.ok a, s) := by
  rcases hx : x.run s with ⟨result, t⟩
  rw [hx] at h
  cases h
  cases result with
  | error fault => exact .inl ⟨fault, rfl⟩
  | ok a => exact .inr ⟨a, rfl⟩

theorem run_combine_iff {op : Option NumberOp} {current operand old new : Value} {s : Session} :
    (combine op current operand).run s = (.ok (old, new), s) ↔
      Combines s.settings.divisionPrecision.toNat op current operand old new := by
  constructor
  · intro h
    cases op with
    | some op =>
      obtain ⟨l, hl, h⟩ := ok_of_run_lift_bind h
      obtain ⟨r, hr, h⟩ := ok_of_run_lift_bind h
      obtain ⟨d, t, hcompute, h⟩ := ok_of_run_bind h
      cases h
      rw [compute, run_get_bind, run_lift] at hcompute
      cases hd : op.compute l r s.settings.divisionPrecision.toNat with
      | ok d' =>
        rw [hd] at hcompute
        cases hcompute
        exact .calculated hl hr hd
      | error fault =>
        rw [hd] at hcompute
        cases hcompute
    | none =>
      obtain ⟨l, hl, h⟩ := ok_of_run_lift_bind h
      obtain ⟨r, hr, h⟩ := ok_of_run_lift_bind h
      cases h
      exact .joined hl hr
  · intro h
    cases h with
    | @calculated op _ _ l r d hl hr hd =>
      have hcompute : (compute op l r).run s = (.ok d, s) := by
        rw [compute, run_get_bind, run_lift, hd]
        rfl
      unfold combine
      simp only
      rw [hl, run_lift_ok_bind, hr, run_lift_ok_bind, run_bind_of_ok hcompute]
      rfl
    | joined hl hr =>
      unfold combine
      simp only
      rw [hl, run_lift_ok_bind, hr, run_lift_ok_bind]
      rfl

end Eval

namespace Ref

variable {scope : Scope} {members : List Ref} {op : Option NumberOp} {value : Ref} {kind : AssignKind} {lenient : Bool}
  {s : Session}

/-- **Where an assignment can fail**, and in which session: before anything, while its names are resolved, at reading its
variable, while its operand is resolved, or at making the new value. -/
inductive Stops (scope : Scope) (members : List Ref) (op : Option NumberOp) (value : Ref) (s : Session) :
    Fault → Session → Prop where
  | refused : op.isSome = true → s.limited = true → Stops scope members op value s .restricted s
  | name {fault t} : (op.isSome = true → s.limited = false) → (Ref.keys members).run s = (.error fault, t) →
      Stops scope members op value s fault t
  | reading {keys fault t} : (op.isSome = true → s.limited = false) → (Ref.keys members).run s = (.ok keys, t) →
      (Eval.readDefined scope keys).run t = (.error fault, t) → Stops scope members op value s fault t
  | operand {keys current fault t u} : (op.isSome = true → s.limited = false) →
      (Ref.keys members).run s = (.ok keys, t) → (Eval.readDefined scope keys).run t = (.ok current, t) →
      (value.resolve false).run t = (.error fault, u) → Stops scope members op value s fault u
  | combining {keys current operand fault t u} : (op.isSome = true → s.limited = false) →
      (Ref.keys members).run s = (.ok keys, t) → (Eval.readDefined scope keys).run t = (.ok current, t) →
      (value.resolve false).run t = (.ok operand, u) → (Eval.combine op current operand).run u = (.error fault, u) →
      Stops scope members op value s fault u

/-- **What an assignment writes**: the names are resolved from `s` to `t` and the operand from `t` to `u`, and together
with what was read in `t` it makes the new value. -/
structure Prepares (scope : Scope) (members : List Ref) (op : Option NumberOp) (value : Ref) (s : Session)
    (keys : List Key) (t u : Session) (old new : Value) : Prop where
  allowed : op.isSome = true → s.limited = false
  names : (Ref.keys members).run s = (.ok keys, t)
  values : ∃ current operand, (Eval.readDefined scope keys).run t = (.ok current, t) ∧
    (value.resolve false).run t = (.ok operand, u) ∧
    Combines s.settings.divisionPrecision.toNat op current operand old new

/-- **What has been prepared can be written**, and is read from where it was written. -/
theorem Prepares.exists_write {keys : List Key} {t u : Session} {old new : Value}
    (h : Prepares scope members op value s keys t u old new) (hscopes : s.HasScopes) :
    ∃ x, (Eval.writePath scope keys new).run u = (.ok (), x) ∧ (Eval.readDefined scope keys).run x = (.ok new, x) := by
  obtain ⟨current, operand, hread, hoperand, hcombines⟩ := h.values
  have ht : t.HasScopes := by
    have hst := Ref.keys_mayBecome members hscopes
    rw [h.names] at hst
    exact hst.hasScopes hscopes
  obtain ⟨htu, origin, hmirrors⟩ := Visit.mirrors ⟨value, false, t⟩ ht
  rw [Visit.run, hoperand] at htu hmirrors
  obtain ⟨x, -, hwrite, -, hback⟩ := hmirrors.writePath ht htu hread hcombines.isComplex hcombines.isAssigned
  exact ⟨x, hwrite, hback⟩

theorem run_combine_iff {keys : List Key} {t u : Session} {current operand old new : Value}
    (hnames : (Ref.keys members).run s = (.ok keys, t)) (hoperand : (value.resolve false).run t = (.ok operand, u)) :
    (Eval.combine op current operand).run u = (.ok (old, new), u) ↔
      Combines s.settings.divisionPrecision.toNat op current operand old new := by
  rw [← (Ref.keys_surroundings hnames).1, ← (Ref.resolve_surroundings hoperand).1]
  exact Eval.run_combine_iff

theorem Prepares.run_assign {keys : List Key} {t u x : Session} {old new : Value}
    (h : Prepares scope members op value s keys t u old new)
    (hwrite : (Eval.writePath scope keys new).run u = (.ok (), x)) :
    ((Ref.assign scope members op value kind).resolve lenient).run s = (.ok (kind.choose old new), x) := by
  obtain ⟨current, operand, hread, hoperand, hcombines⟩ := h.values
  have hcombine := (run_combine_iff h.names hoperand).2 hcombines
  rw [Visit.run_assign h.allowed, carryOut, Eval.run_bind_of_ok h.names, Eval.run_bind_of_ok hread,
    Eval.run_bind_of_ok hoperand, Eval.run_bind_of_ok hcombine, Eval.run_bind_of_ok hwrite]
  rfl

theorem Stops.run_assign {fault : Fault} {t : Session} (h : Stops scope members op value s fault t) :
    ((Ref.assign scope members op value kind).resolve lenient).run s = (.error fault, t) := by
  cases h with
  | refused hop hlimited =>
    obtain ⟨op, rfl⟩ := Option.isSome_iff_exists.1 hop
    rw [resolve_assign_some]
    exact Eval.run_bind_of_error (Eval.run_ensureUnrestricted_of_limited hlimited) _
  | name hfree hnames =>
    rw [Visit.run_assign hfree, carryOut]
    exact Eval.run_bind_of_error hnames _
  | reading hfree hnames hread =>
    rw [Visit.run_assign hfree, carryOut, Eval.run_bind_of_ok hnames]
    exact Eval.run_bind_of_error hread _
  | operand hfree hnames hread hoperand =>
    rw [Visit.run_assign hfree, carryOut, Eval.run_bind_of_ok hnames, Eval.run_bind_of_ok hread]
    exact Eval.run_bind_of_error hoperand _
  | combining hfree hnames hread hoperand hcombine =>
    rw [Visit.run_assign hfree, carryOut, Eval.run_bind_of_ok hnames, Eval.run_bind_of_ok hread,
      Eval.run_bind_of_ok hoperand]
    exact Eval.run_bind_of_error hcombine _

/-- Where an assignment stops, nothing has changed but by its names and its operand. -/
theorem Stops.sameContents {fault : Fault} {t : Session} (h : Stops scope members op value s fault t)
    (hnames : s.SameContents ((Ref.keys members).run s).2)
    (hoperand : ((Ref.keys members).run s).2.SameContents ((value.resolve false).run ((Ref.keys members).run s).2).2) :
    s.SameContents t := by
  cases h with
  | refused => exact Session.sameContents_readFrame.refl s
  | name _ hkeys | reading _ hkeys _ =>
    rw [hkeys] at hnames
    exact hnames
  | operand _ hkeys _ hvalue | combining _ hkeys _ hvalue _ =>
    rw [hkeys] at hnames hoperand
    rw [hvalue] at hoperand
    exact Session.sameContents_readFrame.trans hnames hoperand

/-- **An assignment stops before it writes, or it has prepared what it writes.** -/
theorem stops_or_prepares (scope : Scope) (members : List Ref) (op : Option NumberOp) (value : Ref) (s : Session) :
    (∃ fault t, Stops scope members op value s fault t) ∨
      ∃ keys t u old new, Prepares scope members op value s keys t u old new := by
  by_cases hfree : op.isSome = true → s.limited = false
  · rcases hnames : (Ref.keys members).run s with ⟨_ | keys, t⟩
    · exact .inl ⟨_, _, .name hfree hnames⟩
    rcases Eval.ends_of_session (Eval.session_readDefined scope keys t) with ⟨_, hread⟩ | ⟨current, hread⟩
    · exact .inl ⟨_, _, .reading hfree hnames hread⟩
    rcases hoperand : (value.resolve false).run t with ⟨_ | operand, u⟩
    · exact .inl ⟨_, _, .operand hfree hnames hread hoperand⟩
    rcases Eval.ends_of_session (Eval.session_combine op current operand u) with ⟨_, hcombine⟩ | ⟨⟨old, new⟩, hcombine⟩
    · exact .inl ⟨_, _, .combining hfree hnames hread hoperand hcombine⟩
    exact .inr ⟨keys, t, u, old, new, hfree, hnames, current, operand, hread, hoperand,
      (run_combine_iff hnames hoperand).1 hcombine⟩
  · obtain ⟨hop, hlimited⟩ := Classical.not_imp.1 hfree
    exact .inl ⟨_, _, .refused hop (Bool.not_eq_false _ ▸ hlimited)⟩

/-- **An assignment writes all or nothing.**  It fails exactly if it stops on the way, and then nothing has been written
but by its names and its operand: if they leave all contents as they are, so does it.  Once the new value is there the
write cannot fail, whatever the operand did; the new value is read from the variable then.  What an assignment yields is
the new value or the old one, as it was converted. -/
theorem assign_all_or_nothing (scope : Scope) (members : List Ref) (op : Option NumberOp) (value : Ref)
    (kind : AssignKind) (lenient : Bool) (s : Session) (hscopes : s.HasScopes) :
    (∀ fault t, ((Ref.assign scope members op value kind).resolve lenient).run s = (.error fault, t) ↔
      Stops scope members op value s fault t) ∧
    (∀ fault t, ((Ref.assign scope members op value kind).resolve lenient).run s = (.error fault, t) →
      s.SameContents ((Ref.keys members).run s).2 →
      ((Ref.keys members).run s).2.SameContents ((value.resolve false).run ((Ref.keys members).run s).2).2 →
      s.SameContents t) ∧
    (∀ keys t u old new, Prepares scope members op value s keys t u old new → ∃ x,
      (Eval.writePath scope keys new).run u = (.ok (), x) ∧ (Eval.readDefined scope keys).run x = (.ok new, x)) ∧
    ∀ v x, ((Ref.assign scope members op value kind).resolve lenient).run s = (.ok v, x) ↔
      ∃ keys t u old new, Prepares scope members op value s keys t u old new ∧
        (Eval.writePath scope keys new).run u = (.ok (), x) ∧ (kind = .pre → v = new) ∧ (kind = .post → v = old) := by
  have hprepared : ∀ {keys t u old new}, Prepares scope members op value s keys t u old new →
      ∃ x, (Eval.writePath scope keys new).run u = (.ok (), x) ∧
        ((Ref.assign scope members op value kind).resolve lenient).run s = (.ok (kind.choose old new), x) := by
    intro keys t u old new h
    obtain ⟨x, hwrite, -⟩ := h.exists_write hscopes
    exact ⟨x, hwrite, h.run_assign hwrite⟩
  have hstops : ∀ {fault t}, ((Ref.assign scope members op value kind).resolve lenient).run s = (.error fault, t) →
      Stops scope members op value s fault t := by
    intro fault t hrun
    rcases stops_or_prepares scope members op value s with ⟨fault', t', h⟩ | ⟨keys, t', u, old, new, h⟩
    · cases hrun.symm.trans h.run_assign
      exact h
    · obtain ⟨x, -, hrun'⟩ := hprepared h
      cases hrun.symm.trans hrun'
  refine ⟨fun fault t => ⟨hstops, Stops.run_assign⟩, fun fault t hrun hnames hoperand => ?_, fun keys t u old new h => ?_,
    fun v x => ⟨fun hrun => ?_, fun h => ?_⟩⟩
  · exact (hstops hrun).sameContents hnames hoperand
  · exact h.exists_write hscopes
  · rcases stops_or_prepares scope members op value s with ⟨fault, t, h⟩ | ⟨keys, t, u, old, new, h⟩
    · cases hrun.symm.trans h.run_assign
    · obtain ⟨x', hwrite, hrun'⟩ := hprepared h
      cases hrun.symm.trans hrun'
      refine ⟨keys, t, u, old, new, h, hwrite, ?_, ?_⟩
      · rintro rfl
        rfl
      · rintro rfl
        rfl
  · obtain ⟨keys, t, u, old, new, h, hwrite, hpre, hpost⟩ := h
    rw [h.run_assign hwrite]
    cases kind with
    | pre => rw [hpre rfl]; rfl
    | post => rw [hpost rfl]; rfl

/-- Joins a text to `a.b`. -/
def joinAB (value : Ref) : Ref := .assign .undefined [.literal (.text "a"), .literal (.text "b")] none value .pre

/-- An assignment to `a.b` inside an assignment to `a.b`: both find it in the same place, and the outer one writes to the
struct that the inner one made.  Adding to the text fails, and changes nothing. -/
theorem joinAB_twice_all_or_nothing :
    Session.withAB.HasScopes ∧
    (∃ x, ((joinAB (joinAB (.literal (.text "x")))).resolve false).run .withAB = (.ok (.text "ttx"), x) ∧
      (Eval.readDefined .undefined [⟨"a"⟩, ⟨"b"⟩]).run x = (.ok (.text "ttx"), x)) ∧
    ∃ fault t, ((Ref.assign .undefined [.literal (.text "a"), .literal (.text "b")] (some .plus)
      (.literal (.text "1")) .pre).resolve false).run .withAB = (.error fault, t) ∧ Session.withAB.SameContents t := by
  have hscopes : Session.withAB.HasScopes := Nat.le_trans (Session.new_hasScopes {} false) (by decide)
  refine ⟨hscopes, ?_, ?_⟩
  · obtain ⟨-, -, hwrite, hok⟩ := assign_all_or_nothing .undefined [.literal (.text "a"), .literal (.text "b")] none
      (joinAB (.literal (.text "x"))) .pre false .withAB hscopes
    let u : Session := (((joinAB (.literal (.text "x"))).resolve false).run .withAB).2
    have hprepares : Prepares .undefined [.literal (.text "a"), .literal (.text "b")] none
        (joinAB (.literal (.text "x"))) .withAB [⟨"a"⟩, ⟨"b"⟩] .withAB u (.text "t") (.text ("t" ++ "tx")) :=
      ⟨(fun h => by cases h), rfl, .text "t", .text "tx", rfl, rfl, .joined rfl rfl⟩
    obtain ⟨x, hx, hback⟩ := hwrite _ _ _ _ _ hprepares
    exact ⟨x, (hok _ x).2 ⟨_, _, _, _, _, hprepares, hx, (fun _ => rfl), (fun h => by cases h)⟩, hback⟩
  · obtain ⟨-, hkept, -⟩ := assign_all_or_nothing .undefined [.literal (.text "a"), .literal (.text "b")] (some .plus)
      (.literal (.text "1")) .pre false .withAB hscopes
    refine ⟨_, _, rfl, hkept _ _ rfl ?_ ?_⟩
    · exact Session.sameContents_readFrame.refl _
    · exact Session.sameContents_readFrame.refl _

end Ref

end LooseExpr
