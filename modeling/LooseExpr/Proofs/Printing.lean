import LooseExpr.Proofs.Record
import Mathlib.Logic.Relation
/-!
# What is printed

A value is printed from its picture, which is unfolded down to some depth and cut off where a struct comes again.  Where no
struct or array holds itself, neither is ever met: on the way down every struct and array is another one, and there are no
more of them than the depth (`Store.Room`).  So the printed form of a struct is made of those of its values, in the order
of the keys (`Store.display_struct`), and nothing of how it came about is left in it: structs with the same entries print
the same, in whatever order these were set and in whichever structs and arrays the values lie (`Store.Alike.display_eq`).
-/
namespace LooseExpr

open Relation (ReflTransGen TransGen)

namespace Picture

theorem displayItems_eq (items : List Picture) : displayItems items = items.map display := by
  induction items with
  | nil => rfl
  | cons item items ih => rw [displayItems, ih, List.map_cons]

theorem displayEntries_eq (entries : List (String × Picture)) :
    displayEntries entries = entries.map fun entry => entry.1 ++ ": " ++ entry.2.display := by
  induction entries with
  | nil => rfl
  | cons entry entries ih => rw [displayEntries, ih, List.map_cons]

end Picture

namespace Store

variable {s s' : Store} {v v' w : Value}

/-! ## Values without cycles -/

/-- The values in a struct or an array. -/
def contents (s : Store) : Value → List Value
  | .struct id => (s.record id).map Prod.snd
  | .array id => s.items id
  | _ => []

def Holds (s : Store) (v w : Value) : Prop := w ∈ s.contents v

theorem holds_of_mem {id : StructId} {entry : Key × Value} (h : entry ∈ s.record id) : s.Holds (.struct id) entry.2 :=
  List.mem_map_of_mem h

/-- **No cycle is reached from the value.** -/
def Acyclic (s : Store) (v : Value) : Prop := ∀ w, ReflTransGen s.Holds v w → ¬ TransGen s.Holds w w

theorem Acyclic.of_holds (h : s.Acyclic v) (hw : s.Holds v w) : s.Acyclic w := fun u hu => h u (.head hw hu)

theorem acyclic_of_acc (h : Acc (fun w v => s.Holds v w) v) : s.Acyclic v := by
  induction h with
  | intro v _ ih =>
    intro w hw
    rcases hw.cases_head with rfl | ⟨u, hu, hw⟩
    · intro hcycle
      -- a cycle through `v` is one through what `v` holds, too
      obtain ⟨u, hu, hback⟩ := TransGen.head'_iff.1 hcycle
      exact ih u hu u .refl (.tail' hback hu)
    · exact ih u hu w hw

/-- The structs and arrays of the store. -/
def handles (s : Store) : Finset Value :=
  (Finset.range s.structs.size).image (fun i => .struct ⟨i⟩) ∪ (Finset.range s.arrays.size).image (fun i => .array ⟨i⟩)

theorem card_handles_le (s : Store) : s.handles.card ≤ s.structs.size + s.arrays.size := by
  refine (Finset.card_union_le _ _).trans (Nat.add_le_add ?_ ?_)
  · exact Finset.card_image_le.trans (Finset.card_range _).le
  · exact Finset.card_image_le.trans (Finset.card_range _).le

theorem mem_handles_of_holds (h : s.Holds v w) : v ∈ s.handles := by
  unfold handles
  rw [Finset.mem_union, Finset.mem_image, Finset.mem_image]
  cases v with
  | struct id =>
    refine .inl ⟨id.index, Finset.mem_range.2 (Nat.lt_of_not_le fun hle => ?_), rfl⟩
    simp [Holds, contents, record_of_size_le hle] at h
  | array id =>
    refine .inr ⟨id.index, Finset.mem_range.2 (Nat.lt_of_not_le fun hle => ?_), rfl⟩
    simp [Holds, contents, items, Array.getElem?_eq_none hle] at h
  | _ => cases h

/-! ## How deep a picture goes -/

/-- **There is room left to unfold the value**: what it was reached through are structs and arrays that differ from each
other, those of the path among them, and with the depth that is left they are more than the store has. -/
def Room (s : Store) (v : Value) (depth : Nat) (path : List StructId) : Prop :=
  ∃ passed : Finset Value, (∀ u ∈ passed, TransGen s.Holds u v) ∧ (∀ id ∈ path, .struct id ∈ passed) ∧
    s.structs.size + s.arrays.size < passed.card + depth

variable {depth depth' : Nat} {path path' : List StructId}

theorem room_top (s : Store) (v : Value) : s.Room v ((s.structs.size + 1) * (s.arrays.size + 1) + 1) [] := by
  refine ⟨∅, by simp, by simp, ?_⟩
  rw [Finset.card_empty, Nat.add_mul, Nat.mul_add]
  omega

theorem Room.depth_pos (h : s.Room v depth path) : 0 < depth := by
  obtain ⟨passed, hpassed, -, hdepth⟩ := h
  have hsub : passed ⊆ s.handles := fun u hu => by
    obtain ⟨w, hw, -⟩ := TransGen.head'_iff.1 (hpassed u hu)
    exact mem_handles_of_holds hw
  have hcard := (Finset.card_le_card hsub).trans s.card_handles_le
  omega

theorem Room.not_mem_path {id : StructId} (h : s.Room (.struct id) depth path) (hv : s.Acyclic (.struct id)) :
    id ∉ path := by
  obtain ⟨passed, hpassed, hpath, -⟩ := h
  exact fun hid => hv _ .refl (hpassed _ (hpath id hid))

/-- **One step down takes one of the depth**, and passes one more struct or array. -/
theorem Room.below (h : s.Room v (depth + 1) path) (hv : s.Acyclic v) (hw : s.Holds v w)
    (hpath' : ∀ id ∈ path', id ∈ path ∨ v = .struct id) : s.Room w depth path' := by
  obtain ⟨passed, hpassed, hpath, hdepth⟩ := h
  have hnew : v ∉ passed := fun hmem => hv v .refl (hpassed v hmem)
  refine ⟨insert v passed, fun u hu => ?_, fun id hid => ?_, ?_⟩
  · rcases Finset.mem_insert.1 hu with rfl | hu
    · exact .single hw
    · exact (hpassed u hu).tail hw
  · rcases hpath' id hid with hid | rfl
    · exact Finset.mem_insert_of_mem (hpath id hid)
    · exact Finset.mem_insert_self _ _
  · rw [Finset.card_insert_of_notMem hnew]
    omega

theorem Room.below_struct {id : StructId} (h : s.Room (.struct id) (depth + 1) path) (hv : s.Acyclic (.struct id))
    (hw : s.Holds (.struct id) w) : s.Room w depth (id :: path) := by
  refine h.below hv hw fun id' hid => ?_
  rcases List.mem_cons.1 hid with rfl | hid
  · exact .inr rfl
  · exact .inl hid

theorem Acyclic.acc (hv : s.Acyclic v) : Acc (fun w v => s.Holds v w) v := by
  have hroom : ∀ depth v path, s.Acyclic v → s.Room v depth path → Acc (fun w v => s.Holds v w) v := by
    intro depth
    induction depth with
    | zero => exact fun v path _ h => absurd h.depth_pos (Nat.lt_irrefl 0)
    | succ depth ih =>
      exact fun v path hv h => .intro v fun w hw => ih w [] (hv.of_holds hw) (h.below hv hw (by simp))
  exact hroom _ v [] hv (s.room_top v)

/-- **With room left, neither the depth nor the path shows in a picture.** -/
theorem pictureAt_eq (hv : s.Acyclic v) (h : s.Room v depth path) (h' : s.Room v depth' path') :
    s.pictureAt depth path v = s.pictureAt depth' path' v := by
  -- by induction on the one depth; the other one goes down with it, and room is left on both sides
  induction depth generalizing v depth' path path' with
  | zero => exact absurd h.depth_pos (Nat.lt_irrefl 0)
  | succ depth ih =>
    obtain ⟨depth', rfl⟩ := Nat.exists_eq_succ_of_ne_zero h'.depth_pos.ne'
    cases v with
    | struct id =>
      rw [pictureAt, pictureAt, if_neg (h.not_mem_path hv), if_neg (h'.not_mem_path hv)]
      refine congrArg Picture.struct (List.map_congr_left fun entry hentry => ?_)
      have hholds := holds_of_mem (Record.mem_sorted.1 hentry)
      rw [ih (hv.of_holds hholds) (h.below_struct hv hholds) (h'.below_struct hv hholds)]
    | array id =>
      rw [pictureAt, pictureAt]
      refine congrArg Picture.array (List.map_congr_left fun item hitem => ?_)
      exact ih (hv.of_holds hitem) (h.below hv hitem fun id hid => .inl hid) (h'.below hv hitem fun id hid => .inl hid)
    | _ => rw [pictureAt, pictureAt]

/-- Entries as they are printed, `text` being what is printed of their values. -/
def listing (text : Value → String) (entries : List (Key × Value)) : String :=
  "\x7b" ++ ", ".intercalate (entries.map fun entry => entry.1.spelling ++ ": " ++ text entry.2) ++ "\x7d"

/-- **The printed form of a struct**: its entries in the order of their keys, each with the printed form of its value. -/
theorem display_struct {id : StructId} (h : s.Acyclic (.struct id)) :
    s.display (.struct id) = listing s.display (s.record id).sorted := by
  unfold display picture listing
  rw [pictureAt, if_neg List.not_mem_nil, Picture.display, Picture.displayEntries_eq, List.map_map]
  congr 3
  refine List.map_congr_left fun entry hentry => ?_
  have hholds := holds_of_mem (Record.mem_sorted.1 hentry)
  have hbelow := (s.room_top (.struct id)).below_struct h hholds
  simp only [Function.comp, pictureAt_eq (h.of_holds hholds) hbelow (s.room_top entry.2)]

theorem display_array {id : ArrayId} (h : s.Acyclic (.array id)) :
    s.display (.array id) = "[" ++ ", ".intercalate ((s.items id).map s.display) ++ "]" := by
  unfold display picture
  rw [pictureAt, Picture.display, Picture.displayItems_eq, List.map_map]
  congr 3
  refine List.map_congr_left fun item hitem => ?_
  have hbelow := (s.room_top (.array id)).below h hitem fun id hid => .inl hid
  simp only [Function.comp, pictureAt_eq (h.of_holds hitem) hbelow (s.room_top item)]

/-! ## Values with the same contents -/

/-- **The values are alike**: simple values are equal, structs have the same keys with alike values in whatever order, and
arrays have alike items.  The first value is of the store `s` and the second one of `s'`. -/
inductive Alike (s s' : Store) : Value → Value → Prop
  | simple {v : Value} : v.isComplex = false → Alike s s' v v
  | struct {id id' : StructId} (partner : Key × Value → Value) :
      (s'.record id').Perm ((s.record id).map fun entry => (entry.1, partner entry)) →
      (∀ entry ∈ s.record id, Alike s s' entry.2 (partner entry)) → Alike s s' (.struct id) (.struct id')
  | array {id id' : ArrayId} : (s.items id).length = (s'.items id').length →
      (∀ (i : Nat) item item', (s.items id)[i]? = some item → (s'.items id')[i]? = some item' → Alike s s' item item') →
      Alike s s' (.array id) (.array id')

theorem not_holds_of_simple (h : v.isComplex = false) : ¬ s.Holds v w := by
  cases v with
  | struct => cases h
  | array => cases h
  | _ => exact List.not_mem_nil

theorem Alike.acyclic (h : Alike s s' v v') : s.Acyclic v ∧ s'.Acyclic v' := by
  suffices hacc : Acc (fun w v => s.Holds v w) v ∧ Acc (fun w v => s'.Holds v w) v' from
    ⟨acyclic_of_acc hacc.1, acyclic_of_acc hacc.2⟩
  induction h with
  | simple hv => exact ⟨.intro _ fun w hw => (not_holds_of_simple hv hw).elim,
      .intro _ fun w hw => (not_holds_of_simple hv hw).elim⟩
  | struct partner hperm _ ih =>
    refine ⟨.intro _ fun w hw => ?_, .intro _ fun w hw => ?_⟩
    · obtain ⟨entry, hentry, rfl⟩ := List.mem_map.1 hw
      exact (ih entry hentry).1
    · obtain ⟨entry', hentry', rfl⟩ := List.mem_map.1 hw
      obtain ⟨entry, hentry, rfl⟩ := List.mem_map.1 (hperm.mem_iff.1 hentry')
      exact (ih entry hentry).2
  | array hlength _ ih =>
    refine ⟨.intro _ fun w hw => ?_, .intro _ fun w hw => ?_⟩
    · obtain ⟨i, hi, rfl⟩ := List.mem_iff_getElem.1 hw
      exact (ih i _ _ (List.getElem?_eq_getElem hi) (List.getElem?_eq_getElem (hlength ▸ hi))).1
    · obtain ⟨i, hi, rfl⟩ := List.mem_iff_getElem.1 hw
      exact (ih i _ _ (List.getElem?_eq_getElem (hlength ▸ hi)) (List.getElem?_eq_getElem hi)).2

theorem display_of_simple (h : v.isComplex = false) : s.display v = s'.display v := by
  unfold display picture
  cases v with
  | struct => cases h
  | array => cases h
  | _ => rw [pictureAt, pictureAt]

/-- **Values that are alike print the same**, where no struct has a name twice. -/
theorem Alike.display_eq (h : Alike s s' v v') (hs : s.Keyed) : s.display v = s'.display v' := by
  induction h with
  | simple hv => exact display_of_simple hv
  | @struct id id' partner hperm hall ih =>
    -- sorted, the entries of both stand in one order, so that they are compared one by one
    obtain ⟨hv, hv'⟩ := (Alike.struct partner hperm hall).acyclic
    have hdistinct : Record.Distinct ((s.record id).map fun entry => (entry.1, partner entry)) :=
      List.pairwise_map.2 (hs id)
    rw [display_struct hv, display_struct hv', Record.sorted_eq_of_perm hdistinct hperm, Record.sorted_map]
    unfold listing
    rw [List.map_map]
    congr 3
    refine List.map_congr_left fun entry hentry => ?_
    rw [ih entry (Record.mem_sorted.1 hentry)]
    rfl
  | @array id id' hlength hall ih =>
    obtain ⟨hv, hv'⟩ := (Alike.array hlength hall).acyclic
    rw [display_array hv, display_array hv']
    congr 3
    refine List.ext_getElem (by simpa using hlength) fun i hi hi' => ?_
    rw [List.length_map] at hi hi'
    rw [List.getElem_map, List.getElem_map]
    exact ih i _ _ (List.getElem?_eq_getElem hi) (List.getElem?_eq_getElem hi')

/-- **A value is like itself in another store** whose structs list the same entries, in whatever order. -/
theorem Acyclic.alike (h : s.Acyclic v) (hrecords : ∀ id, (s'.record id).Perm (s.record id))
    (hitems : ∀ id, s'.items id = s.items id) : Alike s s' v v := by
  induction h.acc with
  | intro v _ ih =>
    cases v with
    | struct id =>
      refine .struct Prod.snd ?_ fun entry hentry => ?_
      · simpa using hrecords id
      · have hholds := holds_of_mem hentry
        exact ih entry.2 hholds (h.of_holds hholds)
    | array id =>
      refine .array (by rw [hitems]) fun i item item' hitem hitem' => ?_
      rw [hitems, hitem] at hitem'
      cases hitem'
      have hholds : s.Holds (.array id) item := List.mem_of_getElem? hitem
      exact ih item hholds (h.of_holds hholds)
    | _ => exact .simple rfl

/-- The records have the same keys with alike values, in whatever order. -/
def SameEntries (s s' : Store) (r r' : Record) : Prop :=
  ∃ partner : Key × Value → Value, r'.Perm (r.map fun entry => (entry.1, partner entry)) ∧
    ∀ entry ∈ r, Alike s s' entry.2 (partner entry)

theorem SameEntries.alike {sets sets' : List (Key × Value)} {id id' : StructId} (h : SameEntries s s' sets sets')
    (hsets : Record.Distinct sets) (hid : (s.record id).Perm (Record.ofSets sets))
    (hid' : (s'.record id').Perm (Record.ofSets sets')) : Alike s s' (.struct id) (.struct id') := by
  obtain ⟨partner, hperm, halike⟩ := h
  have hpartners : Record.Distinct (sets.map fun entry => (entry.1, partner entry)) := List.pairwise_map.2 hsets
  rw [Record.ofSets_eq_self hsets] at hid
  rw [Record.ofSets_eq_self (hpartners.perm hperm)] at hid'
  refine .struct partner ?_ fun entry hentry => halike entry (hid.mem_iff.1 hentry)
  exact hid'.trans (hperm.trans (hid.map _).symm)

theorem Acyclic.sameEntries {sets sets' : List (Key × Value)} {id : StructId} (h : s.Acyclic (.struct id))
    (hid : (s.record id).Perm sets) (hperm : sets'.Perm sets) : SameEntries s s sets sets' := by
  refine ⟨Prod.snd, by simpa using hperm, fun entry hentry => ?_⟩
  have hholds := holds_of_mem (hid.mem_iff.2 hentry)
  exact (h.of_holds hholds).alike (fun _ => .refl _) fun _ => rfl

end Store

/-! ## Sets without a trace -/

namespace Record

/-- **What the record keeps of the sets**: under each name one entry, with the key that came first and the value that came
last. -/
structure Keeps (r : Record) (sets : List (Key × Value)) : Prop where
  distinct : r.Distinct
  value : ∀ key, r.get? key = (sets.reverse.find? fun entry => entry.1.same key).map Prod.snd
  contains_iff : ∀ key, r.contains key = true ↔ ∃ entry ∈ sets, entry.1.same key = true
  key : ∀ key, (r.find? fun entry => entry.1.same key).map Prod.fst =
    (sets.find? fun entry => entry.1.same key).map Prod.fst
  length : r.length = (sets.map fun entry => entry.1.folded).toFinset.card

theorem ofSets_keeps (sets : List (Key × Value)) : (ofSets sets).Keeps sets where
  distinct := ofSets_distinct sets
  value := get?_ofSets sets
  contains_iff key := by
    rw [contains_eq_isSome, get?_ofSets, Option.isSome_map, List.find?_isSome]
    simp only [List.mem_reverse]
  key key := by
    have hkeys := find?_keys_ofSets sets key
    unfold keys at hkeys
    rwa [List.find?_map, List.find?_map] at hkeys
  length := length_ofSets sets

/-- **A struct is its entries, whatever their history**: of the sets that made it, it keeps under each name the first
spelling and the last value.  Where there is no cycle, its printed form lists them in the strict order of their names,
however they are stored.  If also no name is set twice, the same sets in another order make a struct with the same printed
form, also where the values are alike only, in another store. -/
theorem printed_form_has_no_history (sets : List (Key × Value)) :
    (ofSets sets).Keeps sets ∧
    (∀ (s : Store) (id : StructId), (s.record id).Perm (ofSets sets) → s.Acyclic (.struct id) →
      ∃ entries : List (Key × Value), entries.Perm (ofSets sets) ∧
        (entries.Pairwise fun a b => a.1.folded < b.1.folded) ∧
        s.display (.struct id) = Store.listing s.display entries) ∧
    (∀ (sets' : List (Key × Value)) (s : Store) (id id' : StructId), s.Keyed → Distinct sets → sets'.Perm sets →
      (s.record id).Perm (ofSets sets) → (s.record id').Perm (ofSets sets') → s.Acyclic (.struct id) →
      s.display (.struct id) = s.display (.struct id')) ∧
    (∀ (sets' : List (Key × Value)) (s s' : Store) (id id' : StructId), s.Keyed → Distinct sets →
      Store.SameEntries s s' sets sets' → (s.record id).Perm (ofSets sets) → (s'.record id').Perm (ofSets sets') →
      s.display (.struct id) = s'.display (.struct id')) := by
  refine ⟨ofSets_keeps sets, fun s id hid hacyclic => ?_, fun sets' s id id' hs hsets hperm hid hid' hacyclic => ?_,
    fun sets' s s' id id' hs hsets hsame hid hid' => (hsame.alike hsets hid hid').display_eq hs⟩
  · have hdistinct := (ofSets_distinct sets).perm hid
    exact ⟨(s.record id).sorted, (s.record id).sorted_perm.trans hid, hdistinct.pairwise_sorted,
      Store.display_struct hacyclic⟩
  · have hsame := hacyclic.sameEntries (ofSets_eq_self hsets ▸ hid) hperm
    exact (hsame.alike hsets hid hid').display_eq hs

/-- A name, and a struct with an array in it. -/
def nameAndList : List (Key × Value) := [(⟨"Name"⟩, .text "n"), (⟨"list"⟩, .struct ⟨0⟩)]

/-- The struct with the array, then those of the two sets in either order. -/
def madeTwice : Store :=
  let (array, s) := Store.empty.newArray [.bool true, .null]
  let (_, s) := s.newStruct (ofSets [(⟨"items"⟩, .array array)])
  ((s.newStruct (ofSets nameAndList)).2.newStruct (ofSets nameAndList.reverse)).2

/-- The struct of the two sets once more, in front of the one it leads to. -/
def madeElsewhere : Store :=
  let (array, s) := Store.empty.newArray [.bool true, .null]
  ((s.newStruct (ofSets [(⟨"list"⟩, .struct ⟨1⟩), (⟨"Name"⟩, .text "n")])).2.newStruct
    (ofSets [(⟨"items"⟩, .array array)])).2

theorem nameAndList_made_twice :
    madeTwice.Keyed ∧ Distinct nameAndList ∧ madeTwice.Acyclic (.struct ⟨1⟩) ∧
      madeTwice.display (.struct ⟨1⟩) = madeTwice.display (.struct ⟨2⟩) ∧
      madeTwice.display (.struct ⟨1⟩) = madeElsewhere.display (.struct ⟨0⟩) := by
  have hsets : Distinct nameAndList := by
    unfold Distinct
    decide +kernel
  have hkeyed : madeTwice.Keyed :=
    (((show Store.Keyed (Store.empty.newArray _).2 from Store.keyed_empty).newStruct (ofSets_distinct _)).newStruct
      (ofSets_distinct _)).newStruct (ofSets_distinct _)
  have harray : Store.Alike madeTwice madeElsewhere (.array ⟨0⟩) (.array ⟨0⟩) := by
    refine .array rfl fun i item item' hitem hitem' => ?_
    cases Option.some.inj (hitem.symm.trans hitem')
    have hmem : item ∈ [Value.bool true, .null] := List.mem_of_getElem? hitem
    simp only [List.mem_cons, List.not_mem_nil, or_false] at hmem
    rcases hmem with rfl | rfl <;> exact .simple rfl
  have hlist : Store.Alike madeTwice madeElsewhere (.struct ⟨0⟩) (.struct ⟨1⟩) := by
    refine .struct Prod.snd (.refl _) fun entry hentry => ?_
    cases List.mem_singleton.1 hentry
    exact harray
  have hsame : Store.SameEntries madeTwice madeElsewhere nameAndList [(⟨"list"⟩, .struct ⟨1⟩), (⟨"Name"⟩, .text "n")] := by
    refine ⟨fun entry => if entry.2 = .struct ⟨0⟩ then .struct ⟨1⟩ else entry.2, .swap _ _ [], fun entry hentry => ?_⟩
    simp only [nameAndList, List.mem_cons, List.not_mem_nil, or_false] at hentry
    rcases hentry with rfl | rfl
    · exact .simple rfl
    · exact hlist
  have halike : Store.Alike madeTwice madeElsewhere (.struct ⟨1⟩) (.struct ⟨0⟩) := hsame.alike hsets (.refl _) (.refl _)
  have hacyclic := halike.acyclic.1
  obtain ⟨-, -, hreordered, hmoved⟩ := printed_form_has_no_history nameAndList
  exact ⟨hkeyed, hsets, hacyclic,
    hreordered nameAndList.reverse madeTwice ⟨1⟩ ⟨2⟩ hkeyed hsets (List.reverse_perm _) (.refl _) (.refl _) hacyclic,
    hmoved _ madeTwice madeElsewhere ⟨1⟩ ⟨0⟩ hkeyed hsets hsame (.refl _) (.refl _)⟩

end Record

end LooseExpr
