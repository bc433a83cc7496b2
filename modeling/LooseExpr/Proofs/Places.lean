import LooseExpr.Proofs.Paths
/-!
# Where an assignment writes what it has read

An assignment to `a.b` reads an entry and writes one.  They are the same entry if `a` is written to the struct in which it
was found (`Session.InPlace`).  With a scope that is always so.  Without one, `a` may have been found in a scope that is
only read then; in that case new structs go among the variables, and the entry that was read stays as it was.
-/
namespace LooseExpr

/-! ## Where a lookup ends -/

namespace Store

/-- The entry in which a lookup ends: the one of the last key, or the first that holds no struct. -/
def lastEntry (store : Store) (id : StructId) (key : Key) : List Key → StructId × Key
  | [] => (id, key)
  | next :: keys =>
    match (store.record id).get? key with
    | some (.struct below) => store.lastEntry below next keys
    | _ => (id, key)

def EndsIn (store : Store) (id : StructId) (key : Key) (keys : List Key) (container : StructId) (last : Key) : Prop :=
  (store.lastEntry id key keys).1 = container ∧ last.same (store.lastEntry id key keys).2 = true

/-- The stores have the same entries, but for one. -/
def Replaces (store store' : Store) (container : StructId) (last : Key) (value : Value) : Prop :=
  ∀ id key, (store'.record id).get? key =
    if id = container ∧ last.same key = true then some value else (store.record id).get? key

variable {store store' : Store} {container : StructId} {last : Key} {value : Value}

theorem lastEntry_of_leads {root : StructId} {first : Key} {rest : List Key}
    (h : store.Leads root (first :: rest).dropLast container) (hlast : (first :: rest).getLast? = some last) :
    store.lastEntry root first rest = (container, last) := by
  induction rest generalizing root first with
  | nil =>
    cases h
    cases hlast
    rfl
  | cons key rest ih =>
    rw [List.getLast?_cons_cons] at hlast
    cases h with
    | down hnext h =>
      rw [lastEntry]
      simp only [hnext]
      exact ih h hlast

/-- **A lookup that ends elsewhere finds what it found.**  It cannot go through the entry either, which held no struct. -/
theorem Replaces.descend {current : Value} (h : store.Replaces store' container last value)
    (hentry : (store.record container).get? last = some current) (hcurrent : ∀ next, current ≠ .struct next)
    {id : StructId} {key : Key} {keys : List Key} (hends : ¬ store.EndsIn id key keys container last) :
    descend store' (.struct id) (key :: keys) = descend store (.struct id) (key :: keys) := by
  have hkept : ∀ {id key}, ¬ (id = container ∧ last.same key = true) →
      (store'.record id).get? key = (store.record id).get? key := fun hne => by rw [h, if_neg hne]
  induction keys generalizing id key with
  | nil =>
    have hne : ¬ (id = container ∧ last.same key = true) := hends
    simp only [LooseExpr.descend, hkept hne]
  | cons next keys ih =>
    by_cases hstruct : ∃ below, (store.record id).get? key = some (.struct below)
    · obtain ⟨below, hbelow⟩ := hstruct
      have hne : ¬ (id = container ∧ last.same key = true) := by
        rintro ⟨rfl, hkey⟩
        rw [← Record.get?_congr hkey, hentry] at hbelow
        exact hcurrent below (Option.some.inj hbelow)
      rw [EndsIn, lastEntry] at hends
      simp only [hbelow] at hends
      rw [LooseExpr.descend, LooseExpr.descend]
      simp only [hkept hne, hbelow]
      exact ih hends
    · have hhere : store.lastEntry id key (next :: keys) = (id, key) := by
        rw [lastEntry]
        split
        next below hbelow => exact absurd ⟨below, hbelow⟩ hstruct
        next => rfl
      have hne : ¬ (id = container ∧ last.same key = true) := by
        rw [EndsIn, hhere] at hends
        exact hends
      rw [LooseExpr.descend, LooseExpr.descend]
      simp only [hkept hne]
      cases hv : (store.record id).get? key with
      | none => rfl
      | some v =>
        cases v with
        | struct below => exact absurd ⟨below, hv⟩ hstruct
        | _ => rfl

end Store

namespace Session

/-- The struct in which a name is found. -/
def source (s : Session) (scope : Scope) (key : Key) : Option StructId :=
  if scope = .undefined then (Scope.searchOrder.find? fun candidate => (s.lookupIn candidate key).isSome).map scopeId
  else some (scopeId scope)

/-- The lookup of a path ends in an entry. -/
def EndsIn (s : Session) (scope : Scope) (keys : List Key) (container : StructId) (last : Key) : Prop :=
  ∃ first rest root, keys = first :: rest ∧ s.source scope first = some root ∧
    s.store.EndsIn root first rest container last

/-- A name is written to where it is found: it has a scope, or is in one of the three that are written to without one. -/
def InPlace (s : Session) (scope : Scope) (key : Key) : Prop :=
  scope = .undefined → ∃ candidate ∈ [Scope.locals, .arguments, .vars], (s.lookupIn candidate key).isSome = true

variable {s : Session} {scope : Scope} {key : Key}

theorem lookup_eq_source (s : Session) (scope : Scope) (key : Key) :
    s.lookup scope key = (s.source scope key).bind fun id => (s.store.record id).get? key := by
  unfold lookup source
  by_cases hscope : scope = .undefined
  · rw [if_pos hscope, if_pos hscope]
    generalize Scope.searchOrder = scopes
    induction scopes with
    | nil => rfl
    | cons candidate scopes ih =>
      rw [List.findSome?_cons, List.find?_cons]
      cases hfound : s.lookupIn candidate key with
      | none => exact ih
      | some v => exact hfound.symm
  · rw [if_neg hscope, if_neg hscope]
    rfl

theorem InPlace.source (h : s.InPlace scope key) : s.source scope key = some (s.writeTarget scope key) := by
  unfold Session.source writeTarget
  by_cases hscope : scope = .undefined
  · rw [if_pos hscope, if_pos hscope, Scope.searchOrder, List.find?_cons, List.find?_cons, List.find?_cons]
    obtain ⟨candidate, hmem, hfound⟩ := h hscope
    cases hlocals : (s.lookupIn .locals key).isSome with
    | true => rfl
    | false =>
      cases harguments : (s.lookupIn .arguments key).isSome with
      | true => rfl
      | false =>
        have hvars : (s.lookupIn .vars key).isSome = true := by
          simp only [List.mem_cons, List.not_mem_nil, or_false] at hmem
          rcases hmem with rfl | rfl | rfl
          · cases hlocals.symm.trans hfound
          · cases harguments.symm.trans hfound
          · exact hfound
        rw [hvars, hscope]
        rfl
  · rw [if_neg hscope, if_neg hscope]

theorem writeTarget_of_not_inPlace (h : ¬ s.InPlace scope key) :
    s.writeTarget scope key = scopeId .vars ∧ (s.store.record (scopeId .vars)).get? key = none := by
  obtain ⟨hscope, hnone⟩ := Classical.not_imp.1 h
  have hmissing : ∀ candidate ∈ [Scope.locals, .arguments, .vars], ¬ (s.lookupIn candidate key).isSome = true :=
    fun candidate hmem hfound => hnone ⟨candidate, hmem, hfound⟩
  constructor
  · rw [writeTarget, if_pos hscope, if_neg (hmissing .locals (by simp)), if_neg (hmissing .arguments (by simp)), hscope]
    rfl
  · exact Option.not_isSome_iff_eq_none.1 (hmissing .vars (by simp))

end Session

/-- What is in an entry stays in it, and so a name is found where it was found. -/
theorem Store.Replaces.source {s t : Session} {container : StructId} {last : Key} {current value : Value}
    (h : s.store.Replaces t.store container last value) (hentry : (s.store.record container).get? last = some current)
    (scope : Scope) (key : Key) : t.source scope key = s.source scope key := by
  have hsome : ∀ candidate, (t.lookupIn candidate key).isSome = (s.lookupIn candidate key).isSome := by
    intro candidate
    rw [Session.lookupIn, h]
    by_cases hplace : Session.scopeId candidate = container ∧ last.same key = true
    · rw [if_pos hplace, Session.lookupIn, hplace.1, ← Record.get?_congr hplace.2, hentry]
      rfl
    · rw [if_neg hplace]
      rfl
  unfold Session.source
  simp only [hsome]

namespace Eval

/-- What is read at a path lies below the struct in which its first name is found. -/
theorem run_readPath_eq (s : Session) (scope : Scope) (first : Key) (rest : List Key) :
    (readPath scope (first :: rest)).run s =
      ((s.source scope first).elim (.ok none) fun root => descend s.store (.struct root) (first :: rest), s) := by
  rw [readPath, run_get_bind, Session.lookup_eq_source]
  cases s.source scope first with
  | none => rfl
  | some root =>
    rw [Option.bind_some, Option.elim_some, descend]
    cases (s.store.record root).get? first <;> rfl

/-- **A path reads what it read, unless its lookup ends in the entry.** -/
theorem readPath_of_replaces {s t : Session} {container : StructId} {last : Key} {current value : Value}
    (h : s.store.Replaces t.store container last value) (hentry : (s.store.record container).get? last = some current)
    (hcurrent : ∀ next, current ≠ .struct next) {scope : Scope} {keys : List Key}
    (hends : ¬ s.EndsIn scope keys container last) :
    ((readPath scope keys).run t).1 = ((readPath scope keys).run s).1 := by
  cases keys with
  | nil => rfl
  | cons first rest =>
    rw [run_readPath_eq, run_readPath_eq, h.source hentry]
    cases hsource : s.source scope first with
    | none => rfl
    | some root => exact h.descend hentry hcurrent (fun hroot => hends ⟨first, rest, root, rfl, hsource, hroot⟩)

end Eval

namespace Session

variable {s u : Session} {scope : Scope} {first last : Key} {rest : List Key} {container : StructId} {current : Value}

/-- **Writing in place**, after something that has changed no contents. -/
theorem InPlace.writePath (hplace : s.InPlace scope first) (hscopes : s.HasScopes) (hbecomes : s.MayBecome u)
    (hsame : s.SameContents u) {root : StructId} (hsource : s.source scope first = some root)
    (hleads : s.store.Leads root (first :: rest).dropLast container) (hlast : (first :: rest).getLast? = some last)
    (hentry : (s.store.record container).get? last = some current) (value : Value) :
    (Eval.writePath scope (first :: rest) value).run u =
        (.ok (), { u with store := u.store.set container last value }) ∧
      s.store.Replaces (u.store.set container last value) container last value := by
  cases hsource.symm.trans hplace.source
  have hroot : u.root scope (first :: rest) = s.writeTarget scope first := hbecomes.writeTarget_eq hscopes scope first
  constructor
  · exact Eval.run_writePath_of_leads hlast (hroot ▸ hbecomes.leads hleads) value
  · intro id key
    rw [← hsame.1] at hentry
    rw [Store.get?_set (Store.index_lt_of_get? hentry), hsame.1]

/-- **Writing anew**, after something that has changed no contents: the name is missing where it is written to. -/
theorem writePath_anew (hplace : ¬ s.InPlace scope first) (hscopes : s.HasScopes) (hbecomes : s.MayBecome u)
    (hsame : s.SameContents u) (rest : List Key) (value : Value) :
    (Eval.writePath scope (first :: rest) value).run u =
        (.ok (), { u with store := u.store.grow (scopeId .vars) first rest value }) ∧
      ∀ id key, id.index < u.store.structs.size →
        ((u.store.grow (scopeId .vars) first rest value).record id).get? key =
          if id = scopeId .vars ∧ first.same key = true then some (Store.hook value u.store.structs.size rest)
          else (s.store.record id).get? key := by
  obtain ⟨htarget, hnone⟩ := writeTarget_of_not_inPlace hplace
  have hvars : (scopeId .vars).index < u.store.structs.size := (hbecomes.hasScopes hscopes).scopeId_lt .vars
  have hroot : u.root scope (first :: rest) = scopeId .vars :=
    (hbecomes.writeTarget_eq hscopes scope first).trans htarget
  constructor
  · have hhere : u.store.Leads (u.root scope ([] ++ first :: rest)) [] (scopeId .vars) := hroot ▸ .here
    exact Eval.run_writePath_of_missing hhere hvars (by rw [hsame.1, hnone]) value
  · intro id key hid
    rw [Store.get?_grow hvars hid, hsame.1]

end Session

/-! ## Assignments -/

namespace Ref

variable {s t u x : Session} {scope : Scope} {op : Option NumberOp} {value : Ref} {kind : AssignKind} {lenient : Bool}

theorem keys_of_literals {names : List Value} {keys : List Key}
    (h : (Ref.keys (names.map .literal)).run s = (.ok keys, t)) :
    t = s ∧ List.Forall₂ (fun name key => name.toKey = .ok key) names keys := by
  induction names generalizing keys with
  | nil =>
    cases h
    exact ⟨rfl, .nil⟩
  | cons name names ih =>
    have hname : (resolve (.literal name) false).run s = (.ok name, s) := by rw [resolve]; rfl
    rw [List.map_cons, Ref.keys, Eval.run_bind_of_ok hname] at h
    obtain ⟨key, hkey, h⟩ := Eval.ok_of_run_lift_bind h
    obtain ⟨keys', t', hkeys, h⟩ := Eval.ok_of_run_bind h
    cases h
    obtain ⟨rfl, hnames⟩ := ih hkeys
    exact ⟨rfl, .cons hkey hnames⟩

/-- An assignment that succeeds has written what it has prepared. -/
theorem prepares_of_run_assign {members : List Ref} {v : Value} (hscopes : s.HasScopes)
    (hrun : ((Ref.assign scope members op value kind).resolve lenient).run s = (.ok v, x)) :
    ∃ keys t u old new, Prepares scope members op value s keys t u old new ∧
      (Eval.writePath scope keys new).run u = (.ok (), x) ∧ (Eval.readDefined scope keys).run x = (.ok new, x) ∧
      v = kind.choose old new := by
  rcases stops_or_prepares scope members op value s with ⟨fault, t, h⟩ | ⟨keys, t, u, old, new, h⟩
  · cases hrun.symm.trans h.run_assign
  · obtain ⟨y, hwrite, hback⟩ := h.exists_write hscopes
    cases hrun.symm.trans (h.run_assign hwrite)
    exact ⟨keys, t, u, old, new, h, hwrite, hback, rfl⟩

/-- **An assignment writes where it has read, or anew.**  It reads the entry in which the lookup of its names ends.  If the
first name is found where it is written to, that entry gets the new value; no other entry changes, no struct is made, and
a path reads what it read before unless its lookup ends in that entry.  Otherwise the entry keeps its value, and the new
one goes below the first name among the variables, with a new struct for each further name. -/
theorem assign_in_place_or_anew (scope : Scope) (names : List Value) (op : Option NumberOp) (value : Ref)
    (kind : AssignKind) (lenient : Bool) {result : Except Fault Value} {v : Value} (hscopes : s.HasScopes)
    (hoperand : (value.resolve false).run s = (result, u)) (hsame : s.SameContents u)
    (hrun : ((Ref.assign scope (names.map .literal) op value kind).resolve lenient).run s = (.ok v, x)) :
    ∃ first rest root container last current operand old new,
      List.Forall₂ (fun name key => name.toKey = .ok key) names (first :: rest) ∧
      s.source scope first = some root ∧ s.store.lastEntry root first rest = (container, last) ∧
      (s.store.record container).get? last = some current ∧ result = .ok operand ∧
      Combines s.settings.divisionPrecision.toNat op current operand old new ∧ v = kind.choose old new ∧
      (Eval.readDefined scope (first :: rest)).run x = (.ok new, x) ∧
      (s.InPlace scope first →
        x = { u with store := u.store.set container last new } ∧ x.store.structs.size = u.store.structs.size ∧
        s.store.Replaces x.store container last new ∧
        ∀ scope' keys, ¬ s.EndsIn scope' keys container last →
          ((Eval.readPath scope' keys).run x).1 = ((Eval.readPath scope' keys).run s).1) ∧
      (¬ s.InPlace scope first →
        x = { u with store := u.store.grow (Session.scopeId .vars) first rest new } ∧
        x.store.structs.size = u.store.structs.size + rest.length ∧
        (x.store.record container).get? last = some current ∧
        ∀ id key, id.index < u.store.structs.size → (x.store.record id).get? key =
          if id = Session.scopeId .vars ∧ first.same key = true then some (Store.hook new u.store.structs.size rest)
          else (s.store.record id).get? key) := by
  obtain ⟨keys, t, u', old, new, hprepares, hwrite, hback, rfl⟩ := prepares_of_run_assign hscopes hrun
  obtain ⟨rfl, hnames⟩ := keys_of_literals hprepares.names
  obtain ⟨current, operand, hread, hoperand', hcombines⟩ := hprepares.values
  cases hoperand.symm.trans hoperand'
  have hbecomes : t.MayBecome u := by
    have h := Visit.mayBecome ⟨value, false, t⟩ hscopes
    rw [Visit.run, hoperand] at h
    exact h
  cases keys with
  | nil =>
    -- a scope itself is a struct
    cases hread
    cases hcombines.isComplex
  | cons first rest =>
    obtain ⟨w, hfound, hdescend⟩ := Eval.found_of_run_readDefined hread
    rw [Session.lookup_eq_source] at hfound
    obtain ⟨root, hsource, hfirst⟩ := Option.bind_eq_some_iff.1 hfound
    obtain ⟨container, last, hleads, hlast, hentry⟩ := leads_of_descend hfirst hdescend
    refine ⟨first, rest, root, container, last, current, operand, old, new, hnames, hsource,
      Store.lastEntry_of_leads hleads hlast, hentry, rfl, hcombines, rfl, hback, fun hplace => ?_, fun hplace => ?_⟩
    · obtain ⟨hset, hreplaces⟩ := hplace.writePath hscopes hbecomes hsame hsource hleads hlast hentry new
      cases hwrite.symm.trans hset
      refine ⟨rfl, Store.size_set .., hreplaces, fun scope' keys hends => ?_⟩
      refine Eval.readPath_of_replaces hreplaces hentry (fun next heq => ?_) hends
      cases heq
      cases hcombines.isComplex
    · obtain ⟨hgrow, hkept⟩ := Session.writePath_anew hplace hscopes hbecomes hsame rest new
      cases hwrite.symm.trans hgrow
      refine ⟨rfl, Store.size_grow .., ?_, hkept⟩
      -- what was read is not the entry that was missing
      have hne : ¬ (container = Session.scopeId .vars ∧ first.same last = true) := by
        rintro ⟨rfl, hkey⟩
        rw [← Record.get?_congr hkey, (Session.writeTarget_of_not_inPlace hplace).2] at hentry
        cases hentry
      have hin : container.index < u.store.structs.size := Store.index_lt_of_get? ((hsame.1 container).symm ▸ hentry)
      rw [hkept container last hin, if_neg hne, hentry]

/-- With its scope, `a.b` is written where it was read; without, it is written anew. -/
theorem assign_in_place_or_anew_withAB :
    Session.withAB.HasScopes ∧
    (∃ x, ((Ref.assign .cgi [.literal (.text "a"), .literal (.text "b")] none (.literal (.text "x")) .pre).resolve
        false).run .withAB = (.ok (.text "tx"), x) ∧ x.store.structs.size = Session.withAB.store.structs.size ∧
      Session.withAB.store.Replaces x.store ⟨Scope.named.length⟩ ⟨"b"⟩ (.text "tx")) ∧
    ∃ x, ((joinAB (.literal (.text "x"))).resolve false).run .withAB = (.ok (.text "tx"), x) ∧
      x.store.structs.size = Session.withAB.store.structs.size + 1 ∧
      (x.store.record ⟨Scope.named.length⟩).get? ⟨"b"⟩ = some (.text "t") := by
  have hscopes : Session.withAB.HasScopes := Nat.le_trans (Session.new_hasScopes {} false) (by decide)
  have hsame : Session.withAB.SameContents .withAB := Session.sameContents_readFrame.refl _
  have hkeys : ∀ {keys}, List.Forall₂ (fun name key => Value.toKey name = .ok key) [.text "a", .text "b"] keys →
      keys = [⟨"a"⟩, ⟨"b"⟩] := by
    rintro _ (_ | ⟨ha, _ | ⟨hb, _ | _⟩⟩)
    cases ha
    cases hb
    rfl
  refine ⟨hscopes, ⟨_, rfl, ?_⟩, ⟨_, rfl, ?_⟩⟩
  · obtain ⟨first, rest, root, container, last, _, _, _, _, hnames, hsource, hends, -, -, -, hv, -, hplace, -⟩ :=
      assign_in_place_or_anew .cgi [.text "a", .text "b"] none (.literal (.text "x")) .pre false hscopes rfl hsame rfl
    cases hkeys hnames
    cases hsource
    cases hends
    cases hv
    obtain ⟨-, hsize, hreplaces, -⟩ := hplace (fun hscope => by cases hscope)
    exact ⟨hsize, hreplaces⟩
  · obtain ⟨first, rest, root, container, last, _, _, _, _, hnames, hsource, hends, hentry, -, -, -, -, -, hanew⟩ :=
      assign_in_place_or_anew .undefined [.text "a", .text "b"] none (.literal (.text "x")) .pre false hscopes rfl hsame rfl
    cases hkeys hnames
    cases hsource
    cases hends
    obtain ⟨-, hsize, hkept, -⟩ := hanew (by unfold Session.InPlace; decide +kernel)
    exact ⟨hsize, hkept.trans hentry.symm⟩

/-- **Not every assignment writes to the entry that it has read.** -/
theorem assign_not_always_in_place :
    ¬ ∀ (s x : Session) (scope : Scope) (names : List Value) (op : Option NumberOp) (value : Ref) (v : Value) (first : Key)
        (rest : List Key) (root container : StructId) (last : Key), s.HasScopes → 2 ≤ names.length →
      ((value.resolve false).run s).2 = s → List.Forall₂ (fun name key => name.toKey = .ok key) names (first :: rest) →
      s.source scope first = some root → s.store.lastEntry root first rest = (container, last) →
      ((Ref.assign scope (names.map .literal) op value .pre).resolve false).run s = (.ok v, x) →
      (x.store.record container).get? last = some v := by
  intro h
  have hscopes : Session.withAB.HasScopes := Nat.le_trans (Session.new_hasScopes {} false) (by decide)
  have hentry := h .withAB _ .undefined [.text "a", .text "b"] none (.literal (.text "x")) (.text "tx") ⟨"a"⟩ [⟨"b"⟩]
    (Session.scopeId .cgi) ⟨Scope.named.length⟩ ⟨"b"⟩ hscopes (by decide) rfl (.cons rfl (.cons rfl .nil))
    (by decide +kernel) (by decide +kernel) rfl
  revert hentry
  decide +kernel

end Ref

end LooseExpr
