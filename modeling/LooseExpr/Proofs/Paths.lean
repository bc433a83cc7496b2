import LooseExpr.Proofs.Assignment
/-!
# Writing at a path

A write goes down its path from the struct that the path begins in.  The keys may lead to a last struct, where the value
is set; one of them may hold something that is no struct, and the write fails; or one of them is missing, and new structs
are made for it and for all that comes below.  From there on nothing can fail, because what was made is empty.  So a write
that fails has changed nothing, and one that succeeds has changed one entry of what was there (`Store.grow`).

Reading the same path finds the value again, unless the write has changed the way to it.  It can have done so if the struct
that it changed also comes earlier on the path, or is one of the scopes that a name without a scope is looked for first.
-/
namespace LooseExpr

namespace Store

/-! ## New structs -/

/-- What an entry holds, if there are keys below it: the struct made next, and otherwise the value itself. -/
def hook (value : Value) (next : Nat) : List Key → Value
  | [] => value
  | _ :: _ => .struct ⟨next⟩

/-- One struct for each key, the first of them with the number `next`; the last one holds the value. -/
def chain (value : Value) : Nat → List Key → List Record
  | _, [] => []
  | next, key :: below => [(key, hook value (next + 1) below)] :: chain value (next + 1) below

/-- Sets an entry to a value, or to a chain of new structs with the value at its end. -/
def grow (store : Store) (container : StructId) (key : Key) (below : List Key) (value : Value) : Store :=
  (store.set container key (hook value store.structs.size below)).extend (chain value store.structs.size below)

theorem record_set_of_ne (store : Store) {id other : StructId} (h : other ≠ id) (key : Key) (value : Value) :
    (store.set id key value).record other = store.record other := by
  rcases store.record_set id key value other with hsame | ⟨heq, -⟩
  · exact hsame
  · exact absurd heq h

/-- **The one entry that is not what it was**, among the structs that were there. -/
theorem get?_grow {store : Store} {container id : StructId} (hin : container.index < store.structs.size)
    (hid : id.index < store.structs.size) (key key' : Key) (below : List Key) (value : Value) :
    ((store.grow container key below value).record id).get? key' =
      if id = container ∧ key.same key' = true then some (hook value store.structs.size below)
      else (store.record id).get? key' := by
  rw [grow, record_extend_of_lt (by simpa using hid), get?_set hin]

theorem length_chain (value : Value) (next : Nat) (keys : List Key) : (chain value next keys).length = keys.length := by
  induction keys generalizing next with
  | nil => rfl
  | cons key keys ih => rw [chain, List.length_cons, List.length_cons, ih]

theorem size_grow (store : Store) (container : StructId) (key : Key) (below : List Key) (value : Value) :
    (store.grow container key below value).structs.size = store.structs.size + below.length := by
  simp [grow, length_chain]

theorem grow_nil (store : Store) (container : StructId) (key : Key) (value : Value) :
    store.grow container key [] value = store.set container key value := by
  simp [grow, hook, chain]

/-- A chain is made one struct after the other. -/
theorem grow_cons {store : Store} {container : StructId} (hin : container.index < store.structs.size) (key next : Key)
    (below : List Key) (value : Value) :
    store.grow container key (next :: below) value =
      ((store.newStruct []).2.set container key (.struct ⟨store.structs.size⟩)).grow ⟨store.structs.size⟩ next below
        value := by
  have hsize : ((store.newStruct []).2.set container key (.struct ⟨store.structs.size⟩)).structs.size =
      store.structs.size + 1 := by simp [newStruct]
  have hone : ∀ v, ((store.newStruct []).2.set container key (.struct ⟨store.structs.size⟩)).set ⟨store.structs.size⟩
      next v = (store.set container key (.struct ⟨store.structs.size⟩)).extend [[(next, v)]] := by
    intro v
    simp only [set, newStruct, extend, mk.injEq, and_true]
    refine Array.ext (by simp) (fun i hi hi' => ?_)
    by_cases hlast : i = store.structs.size
    · subst hlast
      simp [Array.getElem_modify, Array.getElem_push, Nat.ne_of_lt hin, Record.set]
    · have hlt : i < store.structs.size := by simp at hi; omega
      simp [Array.getElem_modify, Array.getElem_push, hlt, Ne.symm hlast]
  rw [grow, grow, hsize, hone, chain, extend_cons]
  rfl

/-! ## Ways through a store -/

/-- Every handle in a struct is the handle of a struct. -/
def Closed (store : Store) : Prop :=
  ∀ id key next, (store.record id).get? key = some (.struct next) → next.index < store.structs.size

/-- A key on the way holds something that is no struct. -/
def Blocks (store : Store) (id : StructId) (keys : List Key) (v : Value) : Prop :=
  ∃ before key after container, keys = before ++ key :: after ∧ store.Leads id before container ∧
    (store.record container).get? key = some v ∧ ∀ next, v ≠ .struct next

/-- The structs on the way, as far as it goes. -/
def containers (store : Store) (id : StructId) : List Key → List StructId
  | [] => [id]
  | key :: keys =>
    match (store.record id).get? key with
    | some (.struct next) => id :: store.containers next keys
    | _ => [id]

/-- **A way leads on, is blocked, or breaks off at a key that is missing.** -/
theorem leads_or (store : Store) (id : StructId) (keys : List Key) :
    (∃ container, store.Leads id keys container) ∨ (∃ v, store.Blocks id keys v) ∨
      ∃ before key after container, keys = before ++ key :: after ∧ store.Leads id before container ∧
        (store.record container).get? key = none := by
  induction keys generalizing id with
  | nil => exact .inl ⟨id, .here⟩
  | cons key keys ih =>
    cases hentry : (store.record id).get? key with
    | none => exact .inr (.inr ⟨[], key, keys, id, rfl, .here, hentry⟩)
    | some v =>
      by_cases hv : ∃ next, v = .struct next
      · obtain ⟨next, rfl⟩ := hv
        rcases ih next with ⟨container, h⟩ | ⟨w, before, k, after, container, rfl, h, hw⟩ |
          ⟨before, k, after, container, rfl, h, hnone⟩
        · exact .inl ⟨container, .down hentry h⟩
        · exact .inr (.inl ⟨w, key :: before, k, after, container, rfl, .down hentry h, hw⟩)
        · exact .inr (.inr ⟨key :: before, k, after, container, rfl, .down hentry h, hnone⟩)
      · exact .inr (.inl ⟨v, [], key, keys, id, rfl, .here, hentry, fun next heq => hv ⟨next, heq⟩⟩)

theorem containers_eq_cons (store : Store) (id : StructId) (keys : List Key) :
    store.containers id keys = id :: (store.containers id keys).tail := by
  cases keys with
  | nil => rfl
  | cons key keys =>
    rw [containers]
    split <;> rfl

theorem containers_down {store : Store} {id next : StructId} {key : Key}
    (h : (store.record id).get? key = some (.struct next)) (keys : List Key) :
    store.containers id (key :: keys) = id :: store.containers next keys := by
  rw [containers, h]

namespace Leads

variable {store store' : Store} {id container : StructId} {before : List Key}

theorem mem_containers (h : store.Leads id before container) (after : List Key) :
    container ∈ store.containers id (before ++ after) := by
  induction h with
  | here =>
    rw [containers_eq_cons]
    exact List.mem_cons_self
  | down hnext _ ih =>
    rw [List.cons_append, containers_down hnext]
    exact List.mem_cons_of_mem _ ih

theorem index_lt (h : store.Leads id before container) (hclosed : store.Closed) (hid : id.index < store.structs.size) :
    container.index < store.structs.size := by
  induction h with
  | here => exact hid
  | down hnext _ ih => exact ih (hclosed _ _ _ hnext)

/-- **The way to the last struct stays**, if that one does not come earlier. -/
theorem grow (h : store.Leads id before container) (hin : container.index < store.structs.size) {after : List Key}
    (hnodup : (store.containers id (before ++ after)).Nodup) (key : Key) (below : List Key) (value : Value) :
    (store.grow container key below value).Leads id before container := by
  induction h with
  | here => exact .here
  | @down id k next before container hnext h ih =>
    rw [List.cons_append, containers_down hnext, List.nodup_cons] at hnodup
    have hne : id ≠ container := fun heq => hnodup.1 (heq ▸ h.mem_containers after)
    refine .down ?_ (ih hin hnodup.2)
    rw [get?_grow hin (index_lt_of_get? hnext)]
    simp [hne, hnext]

end Leads

namespace Closed

variable {store : Store}

theorem newStruct (h : store.Closed) : (store.newStruct []).2.Closed := by
  intro id key next hnext
  have hsize : (store.newStruct []).2.structs.size = store.structs.size + 1 := Array.size_push _
  rw [record, Store.newStruct, getD_push_default] at hnext
  have := h id key next hnext
  omega

theorem set (h : store.Closed) (id : StructId) (key : Key) {value : Value}
    (hvalue : ∀ next, value = .struct next → next.index < store.structs.size) : (store.set id key value).Closed := by
  intro other key' next hnext
  rw [size_set]
  rcases of_get?_set hnext with hbefore | ⟨-, -, heq⟩
  · exact h other key' next hbefore
  · exact hvalue next heq.symm

/-- **A store that grows stays closed**: a chain is made one struct after the other. -/
theorem grow (h : store.Closed) {container : StructId} (hin : container.index < store.structs.size) (key : Key)
    (below : List Key) {value : Value} (hvalue : ∀ next, value = .struct next → next.index < store.structs.size) :
    (store.grow container key below value).Closed := by
  induction below generalizing store container key with
  | nil =>
    rw [grow_nil]
    exact h.set container key hvalue
  | cons next below ih =>
    have hsize : ((store.newStruct []).2.set container key (.struct ⟨store.structs.size⟩)).structs.size =
        store.structs.size + 1 := by simp [Store.newStruct]
    rw [grow_cons hin]
    refine ih (h.newStruct.set container key ?_) ?_ next ?_
    · intro made heq
      cases heq
      simp [Store.newStruct]
    · rw [hsize]
      exact Nat.lt_succ_self _
    · intro id hid
      rw [hsize]
      exact Nat.lt_succ_of_lt (hvalue id hid)

end Closed

end Store

theorem Session.new_closed (settings : Settings) (limited : Bool) : (new settings limited).store.Closed := by
  intro id key next hnext
  have hempty : (new settings limited).store.record id = [] := by
    by_cases hid : id.index < Scope.named.length <;> simp [Store.record, new, hid]
  rw [hempty] at hnext
  cases hnext

/-! ## Reading what was written -/

/-- The same keys, up to case. -/
abbrev SameKeys : List Key → List Key → Prop := List.Forall₂ fun key key' => key.same key' = true

theorem descend_leads {store : Store} {id container : StructId} {before rest keys : List Key}
    (h : store.Leads id before container) (hkeys : SameKeys (before ++ rest) keys) :
    ∃ rest', SameKeys rest rest' ∧ descend store (.struct id) keys = descend store (.struct container) rest' := by
  induction h generalizing keys with
  | here => exact ⟨keys, hkeys, rfl⟩
  | down hnext _ ih =>
    cases hkeys with
    | cons hkey hkeys =>
      obtain ⟨rest', hrest, hdescend⟩ := ih hkeys
      refine ⟨rest', hrest, ?_⟩
      rw [Record.get?_congr hkey] at hnext
      simp only [descend, hnext]
      exact hdescend

/-- A chain leads to its value. -/
theorem descend_chain (value : Value) {below keys : List Key} (hkeys : SameKeys below keys) {store : Store} {n : Nat}
    (hn : store.structs.size = n) :
    descend (store.extend (Store.chain value n below)) (Store.hook value n below) keys = .ok (some value) := by
  induction hkeys generalizing store n with
  | nil => rfl
  | @cons key key' below keys hkey _ ih =>
    subst hn
    have hentry : ((store.extend (Store.chain value store.structs.size (key :: below))).record
        ⟨store.structs.size⟩).get? key' = some (Store.hook value (store.structs.size + 1) below) := by
      rw [Store.chain, Store.record_extend_size, Record.get?_cons, if_pos hkey]
    rw [Store.hook, descend]
    simp only [hentry]
    rw [Store.chain, Store.extend_cons]
    exact ih (by simp)

theorem descend_grow {store : Store} {id container : StructId} {before : List Key}
    (h : store.Leads id before container) (hin : container.index < store.structs.size) {after : List Key}
    (hnodup : (store.containers id (before ++ after)).Nodup) {key : Key} {below keys : List Key} (value : Value)
    (hkeys : SameKeys (before ++ key :: below) keys) :
    descend (store.grow container key below value) (.struct id) keys = .ok (some value) := by
  obtain ⟨rest, hrest, hdescend⟩ := descend_leads (h.grow hin hnodup key below value) hkeys
  rw [hdescend]
  cases hrest with
  | @cons _ key' _ rest hkey hrest =>
    have hentry : ((store.grow container key below value).record container).get? key' =
        some (Store.hook value store.structs.size below) := by
      rw [Store.get?_grow hin hin, if_pos ⟨rfl, hkey⟩]
    simp only [descend, hentry]
    exact descend_chain value hrest (by simp)

namespace Session

/-- The struct that a path begins in when it is written. -/
def root (s : Session) (scope : Scope) : List Key → StructId
  | [] => scopeId scope
  | first :: _ => s.writeTarget scope first

theorem HasScopes.root_lt {s : Session} (h : s.HasScopes) (scope : Scope) (keys : List Key) :
    (s.root scope keys).index < s.store.structs.size := by
  cases keys with
  | nil => exact h.scopeId_lt scope
  | cons first rest =>
    change (s.writeTarget scope first).index < s.store.structs.size
    unfold writeTarget
    split
    · split
      · exact h.scopeId_lt _
      · split <;> exact h.scopeId_lt _
    · exact h.scopeId_lt _

theorem lookupIn_congr {key key' : Key} (h : key.same key' = true) (s : Session) (scope : Scope) :
    s.lookupIn scope key = s.lookupIn scope key' := Record.get?_congr h _

/-- A path without a scope that begins in the local or argument variables has its first name there. -/
theorem lookupIn_isSome_of_writeTarget {s : Session} {key : Key} {scope : Scope}
    (hscope : scope = .locals ∨ scope = .arguments) (h : s.writeTarget .undefined key = scopeId scope) :
    (s.lookupIn scope key).isSome = true := by
  unfold writeTarget at h
  rw [if_pos rfl] at h
  by_cases hlocals : (s.lookupIn .locals key).isSome = true
  · rw [if_pos hlocals] at h
    rcases hscope with rfl | rfl
    · exact hlocals
    · cases h
  · rw [if_neg hlocals] at h
    by_cases harguments : (s.lookupIn .arguments key).isSome = true
    · rw [if_pos harguments] at h
      rcases hscope with rfl | rfl
      · cases h
      · exact harguments
    · rw [if_neg harguments] at h
      rcases hscope with rfl | rfl <;> cases h

/-- **The path begins where it began**, unless the struct that was changed is a scope that is asked first. -/
theorem root_grow {s : Session} (hscopes : s.HasScopes) {scope : Scope} {keys keys' : List Key} {container : StructId}
    (hin : container.index < s.store.structs.size)
    (hplace : scope = .undefined → container = s.root scope keys ∨
      container ≠ scopeId .locals ∧ container ≠ scopeId .arguments)
    (hkeys : SameKeys keys keys') (key : Key) (below : List Key) (value : Value) :
    root { s with store := s.store.grow container key below value } scope keys' = s.root scope keys := by
  cases hkeys with
  | nil => rfl
  | @cons first first' rest rest' hfirst _ =>
    by_cases hscope : scope = .undefined
    · have hsame : ∀ candidate, candidate = .locals ∨ candidate = .arguments →
          (lookupIn { s with store := s.store.grow container key below value } candidate first').isSome =
            (s.lookupIn candidate first).isSome := by
        intro candidate hcandidate
        rw [← lookupIn_congr hfirst, lookupIn, Store.get?_grow hin (hscopes.scopeId_lt candidate)]
        by_cases hcontainer : scopeId candidate = container ∧ key.same first = true
        · have hfound : (s.lookupIn candidate first).isSome = true := by
            subst hscope
            rcases hplace rfl with hroot | ⟨hlocals, harguments⟩
            · exact lookupIn_isSome_of_writeTarget hcandidate (hroot.symm.trans hcontainer.1.symm)
            · rcases hcandidate with rfl | rfl
              · exact absurd hcontainer.1.symm hlocals
              · exact absurd hcontainer.1.symm harguments
          rw [if_pos hcontainer, hfound]
          rfl
        · rw [if_neg hcontainer]
          rfl
      subst hscope
      simp only [root, writeTarget, if_true, hsame .locals (.inl rfl), hsame .arguments (.inr rfl)]
    · simp [root, writeTarget, hscope]

end Session

namespace Eval

/-- What lies below the struct that a path begins in is read. -/
theorem run_readPath_of_descend {s : Session} {scope : Scope} {keys : List Key} {value : Value} (hkeys : keys ≠ [])
    (h : descend s.store (.struct (s.root scope keys)) keys = .ok (some value)) :
    (readPath scope keys).run s = (.ok (some value), s) := by
  cases keys with
  | nil => exact absurd rfl hkeys
  | cons first rest =>
    obtain ⟨id, v, hid, hfirst, hrest⟩ := descend_cons h
    cases hid
    rw [readPath, run_get_bind, Session.lookup_of_writeTarget hfirst]
    exact (run_lift _ s).trans (by rw [hrest])

/-! ## The write -/

theorem run_openPath_of_blocks {s : Session} {id : StructId} {keys : List Key} {v : Value} (last : Key)
    (h : s.store.Blocks id keys v) :
    (openPath last id keys).run s = (.error (.noAssignment last.spelling v.type), s) := by
  obtain ⟨before, key, after, container, rfl, hleads, hentry, hv⟩ := h
  rw [run_openPath_append hleads, openPath, run_get_bind]
  simp only [hentry]
  cases v with
  | struct next => exact absurd rfl (hv next)
  | _ => rfl

/-- **Where an entry is missing, a chain is made.** -/
theorem run_openPath_of_missing {s : Session} {container : StructId} {keys below : List Key} {last key : Key}
    (hpath : keys ++ [last] = key :: below) (hin : container.index < s.store.structs.size)
    (hnone : (s.store.record container).get? key = none) (value : Value) :
    (openPath last container keys >>= fun id => setEntry id last value).run s =
      (.ok (), { s with store := s.store.grow container key below value }) := by
  induction keys generalizing s container key below with
  | nil =>
    cases hpath
    rw [Store.grow_nil]
    rfl
  | cons k keys ih =>
    obtain ⟨next, below', hrest⟩ : ∃ next below', keys ++ [last] = next :: below' := List.exists_cons_of_ne_nil (by simp)
    rw [List.cons_append, hrest] at hpath
    cases hpath
    let made : StructId := ⟨s.store.structs.size⟩
    let s' : Session := (newStruct.run s).2
    have hmade : newStruct.run s = (.ok made, s') := rfl
    have hset : (setEntry container k (.struct made)).run s' = (.ok (), s'.setEntry container k (.struct made)) := rfl
    -- the struct that was made is empty, so the next key is missing too
    have hempty : (s'.setEntry container k (.struct made)).store.record made = [] := by
      have hne : made ≠ container := fun heq => absurd hin (by rw [← heq]; exact Nat.lt_irrefl _)
      rw [Session.setEntry, Store.record_set_of_ne _ hne, (Session.sameContents_readFrame.newStruct s).1]
      exact Store.record_of_size_le (Nat.le_refl _)
    have hin' : made.index < (s'.setEntry container k (.struct made)).store.structs.size := by
      have hsize : s'.store.structs.size = s.store.structs.size + 1 := Array.size_push _
      rw [Session.setEntry, Store.size_set, hsize]
      exact Nat.lt_succ_self _
    have hih := ih hrest hin' (by rw [hempty]; rfl)
    rw [openPath, bind_assoc, run_get_bind]
    simp only [hnone]
    rw [bind_assoc, run_bind_of_ok hmade, bind_assoc, run_bind_of_ok hset, hih, Store.grow_cons hin]
    rfl

theorem run_writePath {s : Session} {scope : Scope} {keys : List Key} {last : Key} (hlast : keys.getLast? = some last)
    (value : Value) :
    (writePath scope keys value).run s =
      (openPath last (s.root scope keys) keys.dropLast >>= fun id => setEntry id last value).run s := by
  cases keys with
  | nil => cases hlast
  | cons first rest =>
    unfold writePath
    rw [hlast]
    simp only [List.headD_cons]
    rw [run_get_bind]
    rfl

theorem run_writePath_of_blocks {s : Session} {scope : Scope} {keys : List Key} {last : Key} {v : Value}
    (hlast : keys.getLast? = some last) (h : s.store.Blocks (s.root scope keys) keys.dropLast v) (value : Value) :
    (writePath scope keys value).run s = (.error (.noAssignment last.spelling v.type), s) := by
  rw [run_writePath hlast]
  exact run_bind_of_error (run_openPath_of_blocks last h) _

theorem run_writePath_of_leads {s : Session} {scope : Scope} {keys : List Key} {last : Key} {container : StructId}
    (hlast : keys.getLast? = some last) (h : s.store.Leads (s.root scope keys) keys.dropLast container) (value : Value) :
    (writePath scope keys value).run s = (.ok (), { s with store := s.store.set container last value }) := by
  rw [run_writePath hlast, run_bind_of_ok (run_openPath_of_leads last h)]
  rfl

theorem run_writePath_of_missing {s : Session} {scope : Scope} {before below : List Key} {key : Key} {container : StructId}
    (h : s.store.Leads (s.root scope (before ++ key :: below)) before container)
    (hin : container.index < s.store.structs.size) (hnone : (s.store.record container).get? key = none) (value : Value) :
    (writePath scope (before ++ key :: below) value).run s =
      (.ok (), { s with store := s.store.grow container key below value }) := by
  obtain ⟨last, hlast⟩ : ∃ last, (key :: below).getLast? = some last := ⟨_, List.getLast?_cons⟩
  have hlast' : (before ++ key :: below).getLast? = some last := by rw [List.getLast?_append, hlast]; rfl
  rw [run_writePath hlast', List.dropLast_append_of_ne_nil (by simp), run_bind, run_openPath_append h, ← run_bind]
  exact run_openPath_of_missing (List.dropLast_append_getLast? last hlast) hin hnone value

/-- **A write is blocked, or one entry grows**: the last one, or the first one that is missing. -/
theorem run_writePath_cases {s : Session} (hscopes : s.HasScopes) (hclosed : s.store.Closed) (scope : Scope)
    {keys : List Key} {last : Key} (hlast : keys.getLast? = some last) (value : Value) :
    (∃ v, s.store.Blocks (s.root scope keys) keys.dropLast v) ∨
      ∃ before key below container, keys = before ++ key :: below ∧
        s.store.Leads (s.root scope keys) before container ∧ container.index < s.store.structs.size ∧
        (below = [] ∨ (s.store.record container).get? key = none) ∧
        (writePath scope keys value).run s = (.ok (), { s with store := s.store.grow container key below value }) := by
  have hkeys : keys.dropLast ++ [last] = keys := List.dropLast_append_getLast? last hlast
  have hroot := hscopes.root_lt scope keys
  rcases s.store.leads_or (s.root scope keys) keys.dropLast with
    ⟨container, h⟩ | hblocks | ⟨before, key, after, container, hparents, h, hnone⟩
  · refine .inr ⟨keys.dropLast, last, [], container, hkeys.symm, h, h.index_lt hclosed hroot, .inl rfl, ?_⟩
    rw [run_writePath_of_leads hlast h, Store.grow_nil]
  · exact .inl hblocks
  · have hin := h.index_lt hclosed hroot
    obtain rfl : keys = before ++ key :: (after ++ [last]) := by rw [← hkeys, hparents]; simp
    exact .inr ⟨before, key, after ++ [last], container, rfl, h, hin, .inr hnone, run_writePath_of_missing h hin hnone value⟩

theorem run_writePath_eq_error_iff {s : Session} (hscopes : s.HasScopes) (hclosed : s.store.Closed) {scope : Scope}
    {keys : List Key} {value : Value} {fault : Fault} {t : Session} :
    (writePath scope keys value).run s = (.error fault, t) ↔ t = s ∧
      (keys = [] ∧ fault = .scopeTarget scope ∨
        ∃ last v, keys.getLast? = some last ∧ s.store.Blocks (s.root scope keys) keys.dropLast v ∧
          fault = .noAssignment last.spelling v.type) := by
  constructor
  · intro h
    cases hlast : keys.getLast? with
    | none =>
      cases List.getLast?_eq_none_iff.1 hlast
      cases h
      exact ⟨rfl, .inl ⟨rfl, rfl⟩⟩
    | some last =>
      rcases run_writePath_cases hscopes hclosed scope hlast value with ⟨v, hv⟩ | ⟨_, _, _, _, -, -, -, -, hrun⟩
      · rw [run_writePath_of_blocks hlast hv] at h
        cases h
        exact ⟨rfl, .inr ⟨last, v, rfl, hv, rfl⟩⟩
      · cases h.symm.trans hrun
  · rintro ⟨rfl, ⟨rfl, rfl⟩ | ⟨last, v, hlast, hv, rfl⟩⟩
    · rfl
    · exact run_writePath_of_blocks hlast hv value

/-- **Where an entry has grown, the value is read.** -/
theorem run_readPath_grow {s : Session} (hscopes : s.HasScopes) {scope : Scope} {before below keys' : List Key} {key : Key}
    {container : StructId} (h : s.store.Leads (s.root scope (before ++ key :: below)) before container)
    (hin : container.index < s.store.structs.size)
    (hnodup : (s.store.containers (s.root scope (before ++ key :: below)) (before ++ key :: below).dropLast).Nodup)
    (hlater : scope = .undefined → ∀ candidate, candidate = .locals ∨ candidate = .arguments → Session.scopeId candidate ∉
      (s.store.containers (s.root scope (before ++ key :: below)) (before ++ key :: below).dropLast).tail)
    (hsame : SameKeys (before ++ key :: below) keys') (value : Value) :
    (readPath scope keys').run { s with store := s.store.grow container key below value } =
      (.ok (some value), { s with store := s.store.grow container key below value }) := by
  have hparents : (before ++ key :: below).dropLast = before ++ (key :: below).dropLast :=
    List.dropLast_append_of_ne_nil (by simp)
  rw [hparents] at hnodup hlater
  have hroot : Session.root { s with store := s.store.grow container key below value } scope keys' =
      s.root scope (before ++ key :: below) := by
    refine Session.root_grow hscopes hin (fun hundefined => ?_) hsame key below value
    -- the struct that grew is the first one on the way, or a later one, which is neither of the two
    have hmem := h.mem_containers (key :: below).dropLast
    rw [Store.containers_eq_cons, List.mem_cons] at hmem
    refine hmem.imp_right (fun htail => ⟨?_, ?_⟩)
    · rintro rfl
      exact hlater hundefined .locals (.inl rfl) htail
    · rintro rfl
      exact hlater hundefined .arguments (.inr rfl) htail
  refine run_readPath_of_descend ?_ ?_
  · rintro rfl
    exact absurd hsame.length_eq (by simp)
  · rw [hroot]
    exact descend_grow h hin hnodup value hsame

/-- **Writing at a path is atomic, and what was written is read.**  It fails exactly if there are no keys, or if a key before
the last one holds something that is no struct, and then nothing has changed.  Otherwise one entry has changed of the
structs that were there: the last one, or the first one that was missing, below which there are new structs only.  If no
struct comes twice on the way, and, without a scope, the local and argument variables do not come later on it, the same
keys in any case read the value.  A closed store stays closed. -/
theorem writePath_atomic_and_readable {s : Session} (hscopes : s.HasScopes) (hclosed : s.store.Closed) (scope : Scope)
    (keys : List Key) (value : Value) :
    (∀ fault t, (writePath scope keys value).run s = (.error fault, t) ↔ t = s ∧
      (keys = [] ∧ fault = .scopeTarget scope ∨
        ∃ last v, keys.getLast? = some last ∧ s.store.Blocks (s.root scope keys) keys.dropLast v ∧
          fault = .noAssignment last.spelling v.type)) ∧
    ∀ t, (writePath scope keys value).run s = (.ok (), t) →
      (∃ before key below container, keys = before ++ key :: below ∧
        s.store.Leads (s.root scope keys) before container ∧ container.index < s.store.structs.size ∧
        (below = [] ∨ (s.store.record container).get? key = none) ∧
        t = { s with store := s.store.grow container key below value } ∧
        ∀ id key', id.index < s.store.structs.size → (t.store.record id).get? key' =
          if id = container ∧ key.same key' = true then some (Store.hook value s.store.structs.size below)
          else (s.store.record id).get? key') ∧
      ((s.store.containers (s.root scope keys) keys.dropLast).Nodup →
        (scope = .undefined → ∀ candidate, candidate = .locals ∨ candidate = .arguments →
          Session.scopeId candidate ∉ (s.store.containers (s.root scope keys) keys.dropLast).tail) →
        ∀ keys', SameKeys keys keys' → (readPath scope keys').run t = (.ok (some value), t)) ∧
      ((∀ id, value = .struct id → id.index < s.store.structs.size) → t.store.Closed) := by
  refine ⟨fun fault t => run_writePath_eq_error_iff hscopes hclosed, fun t ht => ?_⟩
  cases hlast : keys.getLast? with
  | none =>
    cases List.getLast?_eq_none_iff.1 hlast
    cases ht
  | some last =>
    rcases run_writePath_cases hscopes hclosed scope hlast value with
      ⟨v, hv⟩ | ⟨before, key, below, container, rfl, h, hin, hplace, hrun⟩
    · cases ht.symm.trans (run_writePath_of_blocks hlast hv value)
    · cases ht.symm.trans hrun
      refine ⟨⟨before, key, below, container, rfl, h, hin, hplace, rfl, fun id key' hid => ?_⟩, ?_, ?_⟩
      · exact Store.get?_grow hin hid key key' below value
      · intro hnodup hlater keys' hsame
        exact run_readPath_grow hscopes h hin hnodup hlater hsame value
      · exact hclosed.grow hin key below

/-- A session in which `a` is a struct that holds itself, and a text. -/
def cyclic : Session :=
  let s := Session.new {} false
  let a : StructId := ⟨Scope.named.length⟩
  { s with store := (((s.store.newStruct []).2.set (Session.scopeId .vars) ⟨"a"⟩ (.struct a)).set a ⟨"self"⟩
      (.struct a)).set a ⟨"b"⟩ (.text "t") }

/-- A new struct is put into the one that holds itself, and found in any case; below a text nothing can be put. -/
theorem writePath_cyclic :
    cyclic.HasScopes ∧ cyclic.store.Closed ∧
    (∃ t, (writePath .undefined [⟨"a"⟩, ⟨"x"⟩, ⟨"y"⟩] (.text "u")).run cyclic = (.ok (), t) ∧ t.store.Closed ∧
      (readPath .undefined [⟨"A"⟩, ⟨"X"⟩, ⟨"y"⟩]).run t = (.ok (some (.text "u")), t)) ∧
    ∃ fault t, (writePath .undefined [⟨"a"⟩, ⟨"self"⟩, ⟨"b"⟩, ⟨"x"⟩] (.text "u")).run cyclic = (.error fault, t) ∧
      t = cyclic := by
  have hscopes : cyclic.HasScopes := Nat.le_trans (Session.new_hasScopes {} false) (by decide)
  have hclosed : cyclic.store.Closed := by
    refine (((Session.new_closed {} false).newStruct.set _ _ ?_).set _ _ ?_).set _ _ ?_
    · intro next heq
      cases heq
      decide
    · intro next heq
      cases heq
      decide
    · intro next heq
      cases heq
  refine ⟨hscopes, hclosed, ?_, ?_⟩
  · obtain ⟨-, hok⟩ := writePath_atomic_and_readable hscopes hclosed .undefined [⟨"a"⟩, ⟨"x"⟩, ⟨"y"⟩] (.text "u")
    obtain ⟨-, hreadable, hstays⟩ := hok _ rfl
    refine ⟨_, rfl, hstays (fun _ heq => by cases heq), hreadable (by decide +kernel) ?_ _ ?_⟩
    · rintro - candidate (rfl | rfl) <;> decide +kernel
    · exact .cons (by decide +kernel) (.cons (by decide +kernel) (.cons (by decide +kernel) .nil))
  · obtain ⟨hfails, -⟩ :=
      writePath_atomic_and_readable hscopes hclosed .undefined [⟨"a"⟩, ⟨"self"⟩, ⟨"b"⟩, ⟨"x"⟩] (.text "u")
    exact ⟨_, _, rfl, ((hfails _ _).1 rfl).1⟩

end Eval

end LooseExpr
