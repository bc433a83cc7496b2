import LooseExpr.Store
import Mathlib.Data.Finset.Card
/-!
# Records

A record is a list of entries, but only what is found under a name counts.  Entries that are set one after the other
(`Record.ofSets`) leave for each name the value that was set last and the spelling that was set first; no two keys of the
record are the same.  Sorted by their keys, its entries come in one order only, whatever order they were listed in
(`Record.sorted_eq_of_perm`).
-/
namespace LooseExpr

namespace Key

variable {a b c : Key}

theorem same_iff : a.same b = true ↔ a.folded = b.folded := beq_iff_eq

theorem same_eq_false_iff : a.same b = false ↔ a.folded ≠ b.folded := beq_eq_false_iff_ne

theorem same_refl (a : Key) : a.same a = true := same_iff.2 rfl

theorem same_comm (a b : Key) : a.same b = b.same a := Bool.beq_comm

theorem same_trans (h : a.same b = true) (h' : b.same c = true) : a.same c = true :=
  same_iff.2 ((same_iff.1 h).trans (same_iff.1 h'))

/-- **The constant of a well-known name has just this spelling.** -/
theorem constant?_of_fieldName? {name field : String} (h : fieldName? name = some field) :
    constant? field = some ⟨name⟩ := by
  unfold fieldName? at h
  split at h
  · rename_i hmem
    cases h
    unfold constant?
    cases hfind : wellKnownNames.find? (fun other => "_" ++ other == "_" ++ name) with
    | none =>
      have := List.find?_eq_none.1 hfind name hmem
      simp at this
    | some other =>
      have hother := List.find?_some hfind
      rw [beq_iff_eq, String.append_right_inj] at hother
      rw [hother]
      rfl
  · cases h

theorem wellKnown_eq (name : String) : wellKnown name = ⟨name⟩ := by
  unfold wellKnown
  cases h : fieldName? name with
  | none => rfl
  | some field => rw [Option.bind_some, constant?_of_fieldName? h, Option.getD_some]

end Key

namespace Record

variable {r r' : Record} {key : Key} {value : Value}

/-! ## Looking up and setting -/

theorem get?_cons (k key : Key) (v : Value) (r : Record) :
    get? ((k, v) :: r) key = if k.same key then some v else get? r key := by
  unfold get?
  rw [List.find?_cons]
  cases k.same key <;> rfl

theorem get?_append (r r' : Record) (key : Key) : get? (r ++ r') key = (get? r key).or (get? r' key) := by
  unfold get?
  rw [List.find?_append]
  cases List.find? _ r <;> rfl

theorem get?_congr {key key' : Key} (h : key.same key' = true) (r : Record) : r.get? key = r.get? key' := by
  have hsame : ∀ entry : Key × Value, entry.1.same key = entry.1.same key' := fun entry => by
    rw [Key.same, Key.same, Key.same_iff.1 h]
  simp only [get?, hsame]

theorem get?_eq_none_iff : r.get? key = none ↔ ∀ entry ∈ r, entry.1.same key = false := by
  simp [get?]

theorem contains_eq_isSome (r : Record) (key : Key) : r.contains key = (r.get? key).isSome := by
  unfold contains get?
  rw [Option.isSome_map, List.isSome_find?]

theorem get?_set (r : Record) (key key' : Key) (value : Value) :
    (r.set key value).get? key' = if key.same key' then some value else r.get? key' := by
  induction r with
  | nil => rw [set, get?_cons]
  | cons entry r ih =>
    obtain ⟨k, v⟩ := entry
    rw [set]
    by_cases hk : k.same key = true
    · have hsame : k.same key' = key.same key' := by rw [Key.same, Key.same, Key.same_iff.1 hk]
      rw [if_pos hk, get?_cons, get?_cons, hsame]
      by_cases hkey : key.same key' = true
      · simp [hkey]
      · simp [hkey]
    · rw [if_neg hk, get?_cons, get?_cons, ih]
      by_cases hk' : k.same key' = true
      · have hkey : ¬ key.same key' = true := fun hkey => hk (Key.same_trans hk' (Key.same_comm _ _ ▸ hkey))
        simp [hk', hkey]
      · simp [hk']

/-- An entry that is not in the first part is set in the second one. -/
theorem set_append {r : Record} {key : Key} (h : r.get? key = none) (r' : Record) (value : Value) :
    (r ++ r').set key value = r ++ r'.set key value := by
  induction r with
  | nil => rfl
  | cons entry r ih =>
    obtain ⟨k, v⟩ := entry
    rw [get?_cons] at h
    split at h
    next => cases h
    next hsame => rw [List.cons_append, set, if_neg hsame, ih h, List.cons_append]

theorem mem_set {r : Record} {key : Key} {value : Value} {entry : Key × Value} (h : entry ∈ r.set key value) :
    entry ∈ r ∨ entry.2 = value := by
  induction r with
  | nil =>
    cases List.mem_singleton.1 h
    exact .inr rfl
  | cons first r ih =>
    obtain ⟨k, v⟩ := first
    rw [set] at h
    split at h
    next =>
      rcases List.mem_cons.1 h with rfl | h
      · exact .inr rfl
      · exact .inl (List.mem_cons_of_mem _ h)
    next =>
      rcases List.mem_cons.1 h with rfl | h
      · exact .inl List.mem_cons_self
      · exact (ih h).imp_left (List.mem_cons_of_mem _)

/-! ## Keys -/

def keys (r : Record) : List Key := r.map Prod.fst

/-- No two entries have the same key. -/
def Distinct (r : Record) : Prop := r.Pairwise fun a b => a.1.same b.1 = false

theorem distinct_iff_keys : r.Distinct ↔ r.keys.Pairwise fun a b => a.same b = false := by
  unfold Distinct keys
  rw [List.pairwise_map]

theorem Distinct.perm (h : r.Distinct) (hperm : r'.Perm r) : Distinct r' :=
  (hperm.pairwise_iff fun hab => Key.same_comm _ _ ▸ hab).2 h

theorem Distinct.get?_of_mem (h : r.Distinct) (hmem : (key, value) ∈ r) : r.get? key = some value := by
  induction r with
  | nil => cases hmem
  | cons first r ih =>
    obtain ⟨hfirst, hrest⟩ := List.pairwise_cons.1 h
    rw [get?_cons]
    rcases List.mem_cons.1 hmem with rfl | hmem
    · rw [if_pos (Key.same_refl key)]
    · rw [hfirst _ hmem, if_neg Bool.false_ne_true, ih hrest hmem]

theorem set_of_get?_eq_none (h : r.get? key = none) (value : Value) : r.set key value = r ++ [(key, value)] := by
  have hset := set_append h [] value
  rwa [List.append_nil] at hset

theorem keys_set_of_get? {old : Value} (h : r.get? key = some old) (value : Value) : (r.set key value).keys = r.keys := by
  induction r with
  | nil => cases h
  | cons entry r ih =>
    obtain ⟨k, v⟩ := entry
    rw [get?_cons] at h
    rw [set]
    split at h
    next hsame => rw [if_pos hsame]; rfl
    next hsame =>
      rw [if_neg hsame]
      exact congrArg (k :: ·) (ih h)

theorem Distinct.set (h : r.Distinct) (key : Key) (value : Value) : (r.set key value).Distinct := by
  cases hget : r.get? key with
  | none =>
    rw [set_of_get?_eq_none hget]
    refine List.pairwise_append.2 ⟨h, List.pairwise_singleton _ _, fun a ha b hb => ?_⟩
    rw [List.mem_singleton.1 hb]
    exact get?_eq_none_iff.1 hget a ha
  | some old => rwa [distinct_iff_keys, keys_set_of_get? hget, ← distinct_iff_keys]

/-- **The key under a name stays**, and where there was none it is the one that is set. -/
theorem find?_keys_set (r : Record) (key key' : Key) (value : Value) :
    (r.set key value).keys.find? (·.same key') =
      (r.keys.find? (·.same key')).or (if key.same key' then some key else none) := by
  cases hget : r.get? key with
  | none =>
    have hkeys : (r.set key value).keys = r.keys ++ [key] := by
      rw [set_of_get?_eq_none hget]
      simp [keys]
    rw [hkeys, List.find?_append, List.find?_singleton]
  | some old =>
    rw [keys_set_of_get? hget]
    by_cases hsame : key.same key' = true
    · have hfound : (r.keys.find? (·.same key')).isSome = true := by
        obtain ⟨entry, hentry, hkey⟩ : ∃ entry ∈ r, entry.1.same key = true := by
          by_contra hnone
          have : r.get? key = none := get?_eq_none_iff.2 (by simpa using hnone)
          rw [hget] at this
          cases this
        rw [List.find?_isSome]
        exact ⟨entry.1, List.mem_map_of_mem hentry, Key.same_trans hkey hsame⟩
      rw [Option.or_of_isSome hfound]
    · rw [if_neg hsame, Option.or_none]

/-! ## Entries that are set one after the other -/

/-- The record that a sequence of sets makes. -/
def ofSets (sets : List (Key × Value)) : Record := sets.foldl (fun r entry => r.set entry.1 entry.2) []

theorem ofSets_concat (sets : List (Key × Value)) (entry : Key × Value) :
    ofSets (sets ++ [entry]) = (ofSets sets).set entry.1 entry.2 := by
  simp [ofSets]

theorem ofSets_distinct (sets : List (Key × Value)) : (ofSets sets).Distinct := by
  induction sets using List.reverseRecOn with
  | nil => exact .nil
  | append_singleton sets entry ih =>
    rw [ofSets_concat]
    exact ih.set entry.1 entry.2

theorem get?_ofSets (sets : List (Key × Value)) (key : Key) :
    (ofSets sets).get? key = (sets.reverse.find? fun entry => entry.1.same key).map Prod.snd := by
  induction sets using List.reverseRecOn with
  | nil => rfl
  | append_singleton sets entry ih =>
    rw [ofSets_concat, get?_set, ih, List.reverse_append, List.reverse_singleton, List.singleton_append, List.find?_cons]
    cases entry.1.same key <;> rfl

theorem find?_keys_ofSets (sets : List (Key × Value)) (key : Key) :
    (ofSets sets).keys.find? (·.same key) = (keys sets).find? (·.same key) := by
  induction sets using List.reverseRecOn with
  | nil => rfl
  | append_singleton sets entry ih =>
    have hkeys : keys (sets ++ [entry]) = keys sets ++ [entry.1] := by simp [keys]
    rw [ofSets_concat, find?_keys_set, ih, hkeys, List.find?_append, List.find?_singleton]

theorem ofSets_eq_self {sets : List (Key × Value)} (h : Distinct sets) : ofSets sets = sets := by
  induction sets using List.reverseRecOn with
  | nil => rfl
  | append_singleton sets entry ih =>
    obtain ⟨hfirst, -, hlast⟩ := List.pairwise_append.1 h
    rw [ofSets_concat, ih hfirst, set_of_get?_eq_none]
    exact get?_eq_none_iff.2 fun other hother => hlast other hother entry (List.mem_singleton_self _)

theorem length_ofSets (sets : List (Key × Value)) :
    (ofSets sets).length = (sets.map fun entry => entry.1.folded).toFinset.card := by
  have hnodup : ((ofSets sets).map fun entry => entry.1.folded).Nodup :=
    List.pairwise_map.2 ((ofSets_distinct sets).imp Key.same_eq_false_iff.1)
  have hfound : ∀ (r : Record) (key : Key),
      key.folded ∈ r.map (fun entry => entry.1.folded) ↔ (r.keys.find? (·.same key)).isSome = true := by
    intro r key
    simp [keys, Key.same_iff]
  have hsame : ((ofSets sets).map fun entry => entry.1.folded).toFinset =
      (sets.map fun entry => entry.1.folded).toFinset := by
    ext name
    rw [List.mem_toFinset, List.mem_toFinset]
    constructor
    · intro hname
      obtain ⟨entry, -, rfl⟩ := List.mem_map.1 hname
      rwa [hfound, ← find?_keys_ofSets, ← hfound]
    · intro hname
      obtain ⟨entry, -, rfl⟩ := List.mem_map.1 hname
      rwa [hfound, find?_keys_ofSets, ← hfound]
  rw [← hsame, List.toFinset_card_of_nodup hnodup, List.length_map]

/-! ## Sorting -/

theorem sorted_perm (r : Record) : r.sorted.Perm r := List.mergeSort_perm r _

theorem mem_sorted {entry : Key × Value} : entry ∈ r.sorted ↔ entry ∈ r := r.sorted_perm.mem_iff

theorem pairwise_sorted (r : Record) : r.sorted.Pairwise fun a b => a.1.folded ≤ b.1.folded := by
  refine (List.pairwise_mergeSort (fun a b c hab hbc => ?_) (fun a b => ?_) r).imp of_decide_eq_true
  · rw [decide_eq_true_eq] at hab hbc ⊢
    exact String.le_trans hab hbc
  · rw [Bool.or_eq_true, decide_eq_true_eq, decide_eq_true_eq]
    exact String.le_total a.1.folded b.1.folded

/-- **Distinct keys stand in a strict order.** -/
theorem Distinct.pairwise_sorted (h : r.Distinct) : r.sorted.Pairwise fun a b => a.1.folded < b.1.folded := by
  refine ((Record.pairwise_sorted r).and (h.perm r.sorted_perm)).imp fun hab => ?_
  exact Std.lt_of_le_of_ne hab.1 (Key.same_eq_false_iff.1 hab.2)

/-- **The order in which the entries are listed does not matter.** -/
theorem sorted_eq_of_perm (h : r.Distinct) (hperm : r'.Perm r) : Record.sorted r' = r.sorted := by
  refine List.Perm.eq_of_pairwise (fun a b ha hb hab hba => ?_) (h.perm hperm).pairwise_sorted h.pairwise_sorted
    ((sorted_perm r').trans (hperm.trans r.sorted_perm.symm))
  exact absurd (String.lt_trans hab hba) (String.lt_irrefl _)

theorem sorted_map (r : Record) (f : Key × Value → Value) :
    Record.sorted (r.map fun entry => (entry.1, f entry)) = r.sorted.map fun entry => (entry.1, f entry) := by
  unfold sorted
  rw [List.map_mergeSort]
  exact fun a _ b _ => rfl

end Record

/-! ## Records in a store -/

namespace Store

/-- No struct has two entries under the same name. -/
def Keyed (s : Store) : Prop := ∀ id, (s.record id).Distinct

theorem record_of_size_le {store : Store} {id : StructId} (h : store.structs.size ≤ id.index) : store.record id = [] := by
  rw [record, Array.getD_eq_getD_getElem?, Array.getElem?_eq_none h]
  rfl

/-- Setting an entry touches no other struct. -/
theorem record_set (store : Store) (id : StructId) (key : Key) (value : Value) (other : StructId) :
    (store.set id key value).record other = store.record other ∨
      other = id ∧ (store.set id key value).record other = (store.record id).set key value := by
  obtain ⟨i⟩ := id
  obtain ⟨j⟩ := other
  simp only [record, set, Array.getD_eq_getD_getElem?, Array.getElem?_modify, StructId.mk.injEq]
  by_cases hij : i = j
  · subst hij
    cases store.structs[i]? with
    | none => exact .inl (by simp)
    | some r => exact .inr ⟨rfl, by simp⟩
  · exact .inl (by rw [if_neg hij])

theorem record_newStruct (s : Store) (r : Record) (id : StructId) :
    (s.newStruct r).2.record id = if id = (s.newStruct r).1 then r else s.record id := by
  obtain ⟨i⟩ := id
  simp only [record, newStruct, Array.getD_eq_getD_getElem?, Array.getElem?_push, StructId.mk.injEq]
  split <;> rfl

/-- Adds structs behind those that are there. -/
def extend (store : Store) (records : List Record) : Store :=
  { store with structs := store.structs ++ records.toArray }

@[simp]
theorem size_extend (store : Store) (records : List Record) :
    (store.extend records).structs.size = store.structs.size + records.length := by simp [extend]

@[simp]
theorem extend_nil (store : Store) : store.extend [] = store := by simp [extend]

theorem extend_cons (store : Store) (r : Record) (records : List Record) :
    store.extend (r :: records) = (store.extend [r]).extend records := by
  simp [extend]

theorem record_extend_of_lt {store : Store} {id : StructId} (h : id.index < store.structs.size)
    (records : List Record) : (store.extend records).record id = store.record id := by
  simp [record, extend, Array.getElem?_append_left h]

theorem record_extend_add (store : Store) {records : List Record} {i : Nat} (h : i < records.length) :
    (store.extend records).record ⟨store.structs.size + i⟩ = records[i] := by
  simp [record, extend, h]

theorem record_extend_size (store : Store) (r : Record) (records : List Record) :
    (store.extend (r :: records)).record ⟨store.structs.size⟩ = r := by
  simp [record, extend]

theorem items_extend (store : Store) (records : List Record) (id : ArrayId) :
    (store.extend records).items id = store.items id := rfl

theorem items_newArray (store : Store) (items : List Value) :
    (store.newArray items).2.items ⟨store.arrays.size⟩ = items := by
  simp [Store.items, newArray]

theorem keyed_empty : empty.Keyed := fun _ => .nil

theorem Keyed.set {s : Store} (h : s.Keyed) (id : StructId) (key : Key) (value : Value) : (s.set id key value).Keyed := by
  intro other
  rcases s.record_set id key value other with hsame | ⟨-, hset⟩
  · exact hsame ▸ h other
  · exact hset ▸ (h id).set key value

theorem Keyed.newStruct {s : Store} (h : s.Keyed) {r : Record} (hr : r.Distinct) : (s.newStruct r).2.Keyed := by
  intro id
  rw [record_newStruct]
  split
  · exact hr
  · exact h id

end Store

end LooseExpr
