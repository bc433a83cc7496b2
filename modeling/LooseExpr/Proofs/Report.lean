import LooseExpr.Task
import LooseExpr.Proofs.Decimal.Value
import LooseExpr.Proofs.Record
import Mathlib.Data.List.Forall2
import Mathlib.Tactic.NormNum
/-!
# What a listener is told

The report on a task is put together from entries, each under a name of its own, so what is set for a name is what is
found there (`Task.get?_recordOf`).  Its plans are listed in order: each of them is a struct that is made for it, and
nothing that is made later changes one.  The numbers in a report are those of the task, with one exception: the seconds of
an interval pass through a signed word, so an interval from the upper half of the range is reported as a negative number
(`Plan.seconds_eq`).
-/
namespace LooseExpr

namespace Record

/-- A number of this value stands under the name. -/
def HasNumber (r : Record) (name : String) (q : ℚ) : Prop := ∃ d : Decimal, r.get? ⟨name⟩ = some (.number d) ∧ d.value = q

theorem hasNumber_of_ofInt {r : Record} {name : String} {n : Int} (h : r.get? ⟨name⟩ = some (.ofInt n)) :
    r.HasNumber name n :=
  ⟨.ofInt n, h, by simp [Decimal.ofInt, Decimal.value]⟩

theorem HasNumber.unique {r : Record} {name : String} {p q : ℚ} (hp : r.HasNumber name p) (hq : r.HasNumber name q) :
    p = q := by
  obtain ⟨d, hd, rfl⟩ := hp
  obtain ⟨e, he, rfl⟩ := hq
  cases hd.symm.trans he
  rfl

end Record

/-- **The seconds of an interval**: those of the lower half of the range are kept, and from the upper half the size of
the word is taken off. -/
theorem Plan.seconds_eq (p : Plan) :
    p.seconds = if p.interval.toNat < 2 ^ 63 then (p.interval.toNat : Int) else p.interval.toNat - 2 ^ 64 := by
  have hhalf : 2 * p.interval.toNat < 2 ^ 64 ↔ p.interval.toNat < 2 ^ 63 := by omega
  simp only [← hhalf]
  exact BitVec.toInt_eq_toNat_cond p.interval.toBitVec

namespace Task

/-! ## Putting records together -/

def DistinctNames (names : List String) : Prop := names.Pairwise fun a b => Key.same ⟨a⟩ ⟨b⟩ = false

instance (names : List String) : Decidable (DistinctNames names) := inferInstanceAs (Decidable (List.Pairwise _ names))

theorem recordOf_eq {entries : List (String × Value)} (h : DistinctNames (entries.map Prod.fst)) :
    recordOf entries = entries.map fun entry => (⟨entry.1⟩, entry.2) := by
  have hsets : recordOf entries = Record.ofSets (entries.map fun entry => (⟨entry.1⟩, entry.2)) := by
    rw [recordOf, Record.ofSets, List.foldl_map]
    simp only [Key.wellKnown_eq]
  rw [hsets]
  exact Record.ofSets_eq_self (List.pairwise_map.2 (List.pairwise_map.1 h))

/-- **What is set for a name is found there**, since no other entry has the name. -/
theorem get?_recordOf {names : List String} (hnames : DistinctNames names) {entries : List (String × Value)}
    (hsub : (entries.map Prod.fst).Sublist names) {name : String} {value : Value} (h : (name, value) ∈ entries) :
    (recordOf entries).get? ⟨name⟩ = some value := by
  have hdistinct : DistinctNames (entries.map Prod.fst) := List.Pairwise.sublist hsub hnames
  have hrecord : Record.Distinct (recordOf entries) := by
    rw [recordOf_eq hdistinct]
    exact List.pairwise_map.2 (List.pairwise_map.1 hdistinct)
  have hmem : (⟨name⟩, value) ∈ recordOf entries := by
    rw [recordOf_eq hdistinct]
    exact List.mem_map.2 ⟨_, h, rfl⟩
  exact hrecord.get?_of_mem hmem

theorem run_bind {α β : Type} (x : StateM Store α) (f : α → StateM Store β) (s : Store) :
    (x >>= f).run s = (f (x.run s).1).run (x.run s).2 := rfl

theorem run_bind_of_run {α β : Type} {x : StateM Store α} {s s' : Store} {a : α} (h : x.run s = (a, s'))
    (f : α → StateM Store β) : (x >>= f).run s = (f a).run s' := by
  rw [run_bind, h]

theorem run_structOf (r : Record) (s : Store) : (structOf r).run s = (.struct ⟨s.structs.size⟩, s.extend [r]) := by
  rw [Store.extend, ← Array.push_eq_append]
  rfl

theorem run_arrayOf (items : List Value) (s : Store) :
    (arrayOf items).run s = (.array ⟨s.arrays.size⟩, (s.newArray items).2) := rfl

/-! ## The plans -/

def planRecord (p : Plan) : Record := recordOf [("tries", .ofInt p.tries.toNat), ("interval", .ofInt p.seconds)]

theorem planRecord_hasNumber (p : Plan) :
    (planRecord p).HasNumber "tries" p.tries.toNat ∧ (planRecord p).HasNumber "interval" p.seconds :=
  have hnames : DistinctNames ["tries", "interval"] := by decide
  ⟨Record.hasNumber_of_ofInt (get?_recordOf hnames (.refl _) (by simp)),
    Record.hasNumber_of_ofInt (get?_recordOf hnames (.refl _) (by simp))⟩

theorem hasNumber_seconds (p : Plan) : (planRecord p).HasNumber "interval"
    (if p.interval.toNat < 2 ^ 63 then (p.interval.toNat : ℚ) else p.interval.toNat - 2 ^ 64) := by
  have hinterval := (planRecord_hasNumber p).2
  rw [Plan.seconds_eq] at hinterval
  push_cast at hinterval
  exact hinterval

/-- **An interval is told as it is exactly if it is in the lower half of the range.** -/
theorem hasNumber_interval_iff (p : Plan) :
    (planRecord p).HasNumber "interval" p.interval.toNat ↔ p.interval.toNat < 2 ^ 63 := by
  have hinterval := hasNumber_seconds p
  split at hinterval
  next hlow => exact iff_of_true hinterval hlow
  next hhigh =>
    refine iff_of_false (fun h => ?_) hhigh
    have hsame := h.unique hinterval
    exact pow_ne_zero 64 two_ne_zero (sub_eq_self.1 hsame.symm)

theorem run_planValue (p : Plan) (s : Store) :
    (planValue p).run s = (.struct ⟨s.structs.size⟩, s.extend [planRecord p]) :=
  run_structOf (planRecord p) s

/-- **The plans become new structs**, one after the other. -/
theorem run_planValues : ∀ (plans : List Plan) (s : Store), (plans.mapM planValue).run s =
    ((List.range' s.structs.size plans.length).map fun i => .struct ⟨i⟩, s.extend (plans.map planRecord))
  | [], s => by
    rw [List.map_nil, Store.extend_nil]
    rfl
  | p :: plans, s => by
    rw [List.mapM_cons, run_bind_of_run (run_planValue p s), run_bind_of_run (run_planValues plans _),
      List.map_cons, Store.extend_cons s (planRecord p) (plans.map planRecord), Store.size_extend]
    rfl

/-- What a report holds besides: the failures so far, and the plans. -/
def advanced (plans : List Plan) (exceptions : Value) : StateM Store Value := do
  let list ← arrayOf (← plans.mapM planValue)
  structOf (recordOf [("exceptions", exceptions), ("executedPlans", list)])

/-- **The plans are listed in order**, and each is still what it was made as when all is done. -/
theorem run_advanced (plans : List Plan) (exceptions : Value) (s : Store) : ∃ id list s',
    (advanced plans exceptions).run s = (.struct id, s') ∧
    (s'.record id).get? ⟨"executedPlans"⟩ = some (.array list) ∧
    List.Forall₂ (fun v p => ∃ plan, v = .struct plan ∧ s'.record plan = planRecord p) (s'.items list) plans := by
  have hnames : DistinctNames ["exceptions", "executedPlans"] := by decide
  rw [advanced, run_bind_of_run (run_planValues plans s), run_bind_of_run (run_arrayOf _ _), run_structOf]
  refine ⟨_, ⟨(s.extend (plans.map planRecord)).arrays.size⟩, _, rfl, ?_, ?_⟩
  · rw [Store.record_extend_size]
    exact get?_recordOf hnames (.refl _) (by simp)
  · rw [Store.items_extend, Store.items_newArray, List.forall₂_iff_get]
    refine ⟨by simp, fun i _ hi => ⟨⟨s.structs.size + i⟩, by simp, ?_⟩⟩
    have hplans : i < (plans.map planRecord).length := by simpa using hi
    have hbelow : s.structs.size + i < (s.extend (plans.map planRecord)).structs.size := by simpa using hi
    -- a new array leaves the structs as they are
    refine (Store.record_extend_of_lt (hbelow : _ < (Store.newArray _ _).2.structs.size) _).trans ?_
    exact (Store.record_extend_add s hplans).trans (by simp)

/-! ## The report -/

def reportNames : List String :=
  ["lastExecution", "nextExecution", "created", "id", "type", "detail", "tries", "remainingtries", "closed", "passed",
    "exception", "caller", "advanced"]

theorem reportNames_distinct : DistinctNames reportNames := by decide

/-- The entries of a report, in the order in which they are set. -/
def reportEntries (t : Task) (error : Option Fault) (before : Bool) (detail caller advanced : Value)
    (exception : List (String × Value)) : List (String × Value) :=
  timeEntry "lastExecution" t.lastRun ++ timeEntry "nextExecution" t.nextRun
  ++ [("created", .instant t.created), ("id", .text t.id), ("type", .text t.type), ("detail", detail),
    ("tries", .ofInt t.tries.toNat), ("remainingtries", .ofInt (t.remainingTries error)), ("closed", .bool t.closed)]
  ++ (if before then [] else [("passed", .bool error.isNone)])
  ++ exception ++ [("caller", caller), ("advanced", advanced)]

theorem timeEntry_names (name : String) (time : Int) : ((timeEntry name time).map Prod.fst).Sublist [name] := by
  unfold timeEntry
  split
  · exact .refl _
  · exact List.nil_sublist _

theorem reportEntries_names {exception : List (String × Value)}
    (hexception : (exception.map Prod.fst).Sublist ["exception"]) (t : Task) (error : Option Fault) (before : Bool)
    (detail caller advanced : Value) :
    ((t.reportEntries error before detail caller advanced exception).map Prod.fst).Sublist reportNames := by
  have hpassed : ((if before then [] else [("passed", Value.bool error.isNone)]).map Prod.fst).Sublist ["passed"] := by
    cases before
    · exact .refl _
    · exact List.nil_sublist _
  unfold reportEntries
  simp only [List.map_append]
  exact (((((timeEntry_names _ _).append (timeEntry_names _ _)).append (.refl _)).append hpassed).append
    hexception).append (.refl _)

/-- **A report is made of its entries.** -/
theorem run_report (t : Task) (error : Option Fault) (before : Bool) (caller : Caller) (s : Store) :
    ∃ detail callerValue exceptions exception s₁, (exception.map Prod.fst).Sublist ["exception"] ∧
      (t.report error before caller).run s =
        (recordOf (t.reportEntries error before detail callerValue ((advanced t.plans exceptions).run s₁).1 exception),
          ((advanced t.plans exceptions).run s₁).2) := by
  -- what is stored before the plans, and where, is left open: it changes neither the names nor what is stored after it
  unfold report
  cases error with
  | none =>
    simp only [run_bind]
    exact ⟨_, _, _, [], _, List.nil_sublist _, rfl⟩
  | some f =>
    simp only [run_bind]
    exact ⟨_, _, _, [_], _, .refl _, rfl⟩

theorem exists_report (t : Task) (error : Option Fault) (before : Bool) (caller : Caller) (s : Store) :
    ∃ r s' id list, (t.report error before caller).run s = (r, s') ∧
      r.get? ⟨"tries"⟩ = some (.ofInt t.tries.toNat) ∧
      r.get? ⟨"remainingtries"⟩ = some (.ofInt (t.remainingTries error)) ∧
      r.get? ⟨"advanced"⟩ = some (.struct id) ∧ (s'.record id).get? ⟨"executedPlans"⟩ = some (.array list) ∧
      List.Forall₂ (fun v p => ∃ plan, v = .struct plan ∧ s'.record plan = planRecord p) (s'.items list) t.plans := by
  obtain ⟨detail, callerValue, exceptions, exception, s₁, hexception, hrun⟩ := run_report t error before caller s
  obtain ⟨id, list, s', hadvanced, hlist, hplans⟩ := run_advanced t.plans exceptions s₁
  rw [hadvanced] at hrun
  have hnames := reportEntries_names hexception t error before detail callerValue (.struct id)
  refine ⟨_, s', id, list, hrun, ?_, ?_, ?_, hlist, hplans⟩
  · exact get?_recordOf reportNames_distinct hnames (by simp [reportEntries])
  · exact get?_recordOf reportNames_distinct hnames (by simp [reportEntries])
  · exact get?_recordOf reportNames_distinct hnames (by simp [reportEntries])

/-- **A report states the schedule of its task.**  Whatever the task, the failure, the moment and the caller are: the tries
are those of the task; the tries that are left are none without a failure, and with one the number of plans less the tries,
which may be negative; and the plans are listed one by one in their order, each with its tries and its interval.  An
interval from the upper half of its range, and no other, is told as another number: less by `2 ^ 64`. -/
theorem report_states_schedule (t : Task) (error : Option Fault) (before : Bool) (caller : Caller) (s : Store) :
    ∃ r s', (t.report error before caller).run s = (r, s') ∧
      r.HasNumber "tries" t.tries.toNat ∧
      r.HasNumber "remainingtries" (if error.isSome then (t.plans.length : ℚ) - t.tries.toNat else 0) ∧
      ∃ advanced list, r.get? ⟨"advanced"⟩ = some (.struct advanced) ∧
        (s'.record advanced).get? ⟨"executedPlans"⟩ = some (.array list) ∧
        List.Forall₂ (fun v p => ∃ plan, v = .struct plan ∧
          (s'.record plan).HasNumber "tries" p.tries.toNat ∧
          (s'.record plan).HasNumber "interval"
            (if p.interval.toNat < 2 ^ 63 then (p.interval.toNat : ℚ) else p.interval.toNat - 2 ^ 64) ∧
          ((s'.record plan).HasNumber "interval" p.interval.toNat ↔ p.interval.toNat < 2 ^ 63))
        (s'.items list) t.plans := by
  obtain ⟨r, s', id, list, hrun, htries, hremaining, hadvanced, hlist, hplans⟩ := exists_report t error before caller s
  refine ⟨r, s', hrun, Record.hasNumber_of_ofInt htries, ?_, id, list, hadvanced, hlist, hplans.imp ?_⟩
  · have hnumber := Record.hasNumber_of_ofInt hremaining
    unfold remainingTries at hnumber
    push_cast at hnumber
    exact hnumber
  · rintro v p ⟨plan, rfl, hplan⟩
    refine ⟨plan, rfl, ?_⟩
    rw [hplan]
    exact ⟨(planRecord_hasNumber p).1, hasNumber_seconds p, hasNumber_interval_iff p⟩

/-- A task to be tried once more, after `2 ^ 63` seconds. -/
def longWait : Task where
  id := "1"
  type := "http"
  created := 0
  lastRun := 0
  nextRun := 0
  tries := 0
  plans := [⟨1, 9223372036854775808⟩]
  closed := false
  detail := []
  exceptions := []
  mail := none

/-- The wait is reported as a negative number of seconds. -/
theorem longWait_not_stated :
    ∃ r s' advanced list plan, (longWait.report none true ⟨"a", 1⟩).run .empty = (r, s') ∧
      r.get? ⟨"advanced"⟩ = some (.struct advanced) ∧
      (s'.record advanced).get? ⟨"executedPlans"⟩ = some (.array list) ∧ s'.items list = [.struct plan] ∧
      (s'.record plan).HasNumber "interval" (-9223372036854775808) ∧
      ¬ (s'.record plan).HasNumber "interval" 9223372036854775808 := by
  obtain ⟨r, s', id, list, hrun, -, -, hadvanced, hlist, hplans⟩ := exists_report longWait none true ⟨"a", 1⟩ .empty
  obtain ⟨v, rest, ⟨plan, rfl, hplan⟩, hrest, hitems⟩ := List.forall₂_cons_right_iff.1 hplans
  rw [List.forall₂_nil_right_iff.1 hrest] at hitems
  refine ⟨r, s', id, list, plan, hrun, hadvanced, hlist, hitems, ?_⟩
  have hinterval : (s'.record plan).HasNumber "interval" (-9223372036854775808) := by
    rw [hplan]
    exact_mod_cast (planRecord_hasNumber ⟨1, 9223372036854775808⟩).2
  exact ⟨hinterval, fun h => absurd (h.unique hinterval) (by norm_num)⟩

end Task

end LooseExpr
