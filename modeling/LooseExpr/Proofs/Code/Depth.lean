import LooseExpr.Proofs.Code.Emission
/-!
# Depths of the stack

Every place of emitted code has one depth of the stack, whichever way it is reached, and every jump leads forward to a
place that was emitted with it.  A piece of code is looked at with the depth below which it never pops; pieces are put
together where the depth at the end of one is the depth at the start of the other.
-/
namespace LooseExpr

namespace Instr

def pops : Instr → Nat
  | toKey | cast _ | not | neg | dup | pop | jumpIfFalse _ | jumpIfTrue _ | jumpIfNotNull _ => 1
  | getMember | getMemberOrNull | concat | arith _ | compare _ | logic _ => 2
  | assign .. => 3
  | _ => 0

def pushes : Instr → Nat
  | pop | jump _ | jumpIfFalse _ | jumpIfTrue _ | jumpIfNotNull _ => 0
  | dup => 2
  | _ => 1

/-- Where a jump leads. -/
def target? : Instr → Option Nat
  | jump place | jumpIfFalse place | jumpIfTrue place | jumpIfNotNull place => some place
  | _ => none

/-- The next instruction may come after it. -/
def fallsThrough : Instr → Bool
  | jump _ => false
  | _ => true

/-- **The depths agree along every way out of an instruction**, and it leaves what is below the floor. -/
structure Steady (depth : Nat → Nat) (floor place : Nat) (i : Instr) : Prop where
  floor_le : floor + i.pops ≤ depth place
  next : i.fallsThrough = true → depth (place + 1) + i.pops = depth place + i.pushes
  jump : ∀ target, i.target? = some target → depth target + i.pops = depth place + i.pushes

/-- **Code from a place on, with its depths**: its jumps stay inside of it or lead to its end. -/
structure Levels (depth : Nat → Nat) (floor place : Nat) (code : List Instr) : Prop where
  steady : ∀ (n : Nat) (i : Instr), code[n]? = some i → i.Steady depth floor (place + n)
  forward : ∀ (n : Nat) (i : Instr) (target : Nat), code[n]? = some i → i.target? = some target →
    place + n < target ∧ target ≤ place + code.length

namespace Levels

variable {depth depth' : Nat → Nat} {floor place : Nat} {code first second : List Instr} {i : Instr}

theorem nil : Levels depth floor place [] := ⟨by simp, by simp⟩

theorem cons (hi : i.Steady depth floor place)
    (ht : ∀ target, i.target? = some target → place < target ∧ target ≤ place + 1 + code.length)
    (h : Levels depth floor (place + 1) code) : Levels depth floor place (i :: code) := by
  have hplace : ∀ n, place + (n + 1) = place + 1 + n := by omega
  refine ⟨fun n j hj => ?_, fun n j target hj hjt => ?_⟩
  · cases n with
    | zero =>
      cases hj
      exact hi
    | succ n =>
      rw [hplace]
      exact h.steady n j hj
  · rw [List.length_cons, hplace]
    cases n with
    | zero =>
      cases hj
      exact ht target hjt
    | succ n =>
      rw [hplace]
      exact h.forward n j target hj hjt

theorem append (h₁ : Levels depth floor place first) (h₂ : Levels depth floor (place + first.length) second) :
    Levels depth floor place (first ++ second) := by
  induction first generalizing place with
  | nil => simpa using h₂
  | cons j first ih =>
    have hplace : ∀ n, place + 1 + n = place + (n + 1) := by omega
    have htail : Levels depth floor (place + 1) first := by
      refine ⟨fun n i hi => ?_, fun n i target hi hit => ?_⟩
      · rw [hplace]
        exact h₁.steady (n + 1) i hi
      · have := h₁.forward (n + 1) i target hi hit
        rw [List.length_cons] at this
        omega
    have hsecond : Levels depth floor (place + 1 + first.length) second := by
      rw [hplace]
      exact h₂
    rw [List.cons_append]
    refine cons (h₁.steady 0 j rfl) (fun target ht => ?_) (ih htail hsecond)
    have := h₁.forward 0 j target rfl ht
    simp only [List.length_cons, List.length_append] at this ⊢
    omega

/-- Only the depths from the start of the code to its end matter. -/
theorem congr (h : Levels depth floor place code)
    (heq : ∀ x, place ≤ x → x ≤ place + code.length → depth' x = depth x) : Levels depth' floor place code := by
  refine ⟨fun n i hi => ?_, h.forward⟩
  have hn : n < code.length := (List.getElem?_eq_some_iff.1 hi).1
  obtain ⟨hfloor, hnext, hjump⟩ := h.steady n i hi
  have hplace : depth' (place + n) = depth (place + n) := heq _ (by omega) (by omega)
  refine ⟨by rw [hplace]; exact hfloor, fun hf => ?_, fun target ht => ?_⟩
  · rw [hplace, heq _ (by omega) (by omega)]
    exact hnext hf
  · have := h.forward n i target hi ht
    rw [hplace, heq _ (by omega) this.2]
    exact hjump target ht

theorem floor_mono {floor' : Nat} (h : Levels depth floor place code) (hle : floor' ≤ floor) :
    Levels depth floor' place code :=
  ⟨fun n i hi => ⟨by have := (h.steady n i hi).floor_le; omega, (h.steady n i hi).next, (h.steady n i hi).jump⟩,
    h.forward⟩

end Levels

/-- Code that takes the stack from one depth to another. -/
def Balanced (floor place : Nat) (code : List Instr) (entry exit : Nat) : Prop :=
  ∃ depth : Nat → Nat, depth place = entry ∧ depth (place + code.length) = exit ∧ Levels depth floor place code

namespace Balanced

variable {floor place entry middle exit : Nat} {code first second : List Instr} {i : Instr}

theorem nil : Balanced floor place [] entry entry := ⟨fun _ => entry, rfl, rfl, .nil⟩

/-- An instruction that is no jump. -/
theorem single (hjump : i.target? = none) (hfloor : floor + i.pops ≤ entry)
    (hexit : exit + i.pops = entry + i.pushes) : Balanced floor place [i] entry exit := by
  let depth := fun x => if x ≤ place then entry else exit
  have hstart : depth place = entry := if_pos (Nat.le_refl place)
  have hend : depth (place + 1) = exit := if_neg (by omega)
  refine ⟨depth, hstart, hend, .cons ⟨?_, ?_, ?_⟩ ?_ .nil⟩
  · rw [hstart]
    exact hfloor
  · intro _
    rw [hstart, hend]
    exact hexit
  · rw [hjump]
    nofun
  · rw [hjump]
    nofun

theorem append (h₁ : Balanced floor place first entry middle)
    (h₂ : Balanced floor (place + first.length) second middle exit) :
    Balanced floor place (first ++ second) entry exit := by
  obtain ⟨a, ha, ha', hfirst⟩ := h₁
  obtain ⟨b, hb, hb', hsecond⟩ := h₂
  let depth := fun x => if x ≤ place + first.length then a x else b x
  have hlow : ∀ x, x ≤ place + first.length → depth x = a x := fun x hx => if_pos hx
  have hhigh : ∀ x, place + first.length ≤ x → depth x = b x := by
    intro x hx
    by_cases hjoin : x = place + first.length
    · rw [hlow x (by omega), hjoin, ha', hb]
    · exact if_neg (by omega)
  refine ⟨depth, ?_, ?_, .append (hfirst.congr fun x _ hx => hlow x hx) (hsecond.congr fun x hx _ => hhigh x hx)⟩
  · rw [hlow place (by omega), ha]
  · rw [List.length_append, ← Nat.add_assoc, hhigh _ (by omega), hb']

/-- A conditional jump past code that leaves the depth as it is. -/
theorem jumpOver (htarget : i.target? = some (place + 1 + code.length)) (hpops : i.pops = 1) (hpushes : i.pushes = 0)
    (hfloor : floor ≤ entry) (h : Balanced floor (place + 1) code entry entry) :
    Balanced floor place (i :: code) (entry + 1) entry := by
  obtain ⟨a, ha, ha', hcode⟩ := h
  let depth := fun x => if x ≤ place then entry + 1 else a x
  have hstart : depth place = entry + 1 := if_pos (Nat.le_refl place)
  have hrest : ∀ x, place + 1 ≤ x → depth x = a x := fun x hx => if_neg (by omega)
  refine ⟨depth, hstart, ?_, .cons ⟨?_, ?_, ?_⟩ ?_ (hcode.congr fun x hx _ => hrest x hx)⟩
  · rw [List.length_cons, show place + (code.length + 1) = place + 1 + code.length by omega, hrest _ (by omega), ha']
  · rw [hstart, hpops]
    omega
  · intro _
    rw [hstart, hrest _ (Nat.le_refl _), ha, hpops, hpushes]
  · intro target ht
    cases htarget.symm.trans ht
    rw [hstart, hrest _ (by omega), ha', hpops, hpushes]
  · intro target ht
    cases htarget.symm.trans ht
    omega

/-- **Two ways that meet again**: both begin at one depth and end one above it. -/
theorem branch (hfloor : floor ≤ entry) (hyes : Balanced floor (place + 1) first entry (entry + 1))
    (hno : Balanced floor (place + 1 + first.length + 1) second entry (entry + 1)) :
    Balanced floor place (.jumpIfFalse (place + 1 + first.length + 1) ::
      (first ++ .jump (place + 1 + first.length + 1 + second.length) :: second)) (entry + 1) (entry + 1) := by
  obtain ⟨a, ha, ha', hfirst⟩ := hyes
  obtain ⟨b, hb, hb', hsecond⟩ := hno
  let depth := fun x => if x ≤ place then entry + 1 else if x ≤ place + 1 + first.length then a x else b x
  have hstart : depth place = entry + 1 := if_pos (Nat.le_refl place)
  have hlow : ∀ x, place + 1 ≤ x → x ≤ place + 1 + first.length → depth x = a x := fun x hx hx' =>
    (if_neg (by omega)).trans (if_pos hx')
  have hhigh : ∀ x, place + 1 + first.length + 1 ≤ x → depth x = b x := fun x hx =>
    (if_neg (by omega)).trans (if_neg (by omega))
  have hend : depth (place + 1 + first.length + 1 + second.length) = entry + 1 := by rw [hhigh _ (by omega), hb']
  have hpast : depth (place + 1 + first.length) = entry + 1 := by rw [hlow _ (by omega) (by omega), ha']
  -- the jump at the end of the first way never falls through, so the depth may drop right after it
  have hskip : Levels depth floor (place + 1 + first.length)
      (.jump (place + 1 + first.length + 1 + second.length) :: second) := by
    refine .cons ⟨?_, nofun, ?_⟩ ?_ (hsecond.congr fun x hx _ => hhigh x hx)
    · rw [hpast]
      exact Nat.le_succ_of_le hfloor
    · intro target ht
      cases ht
      rw [hend, hpast]
      rfl
    · intro target ht
      cases ht
      omega
  refine ⟨depth, hstart, ?_, .cons ⟨?_, ?_, ?_⟩ ?_ (.append (hfirst.congr fun x hx hx' => hlow x hx hx') hskip)⟩
  · rw [← hend]
    congr 1
    simp only [List.length_cons, List.length_append]
    omega
  · rw [hstart]
    exact Nat.succ_le_succ hfloor
  · intro _
    rw [hstart, hlow _ (by omega) (by omega), ha]
    rfl
  · intro target ht
    cases ht
    rw [hstart, hhigh _ (Nat.le_refl _), hb]
    rfl
  · intro target ht
    cases ht
    simp only [List.length_cons, List.length_append]
    omega

theorem floor_mono {floor' : Nat} (h : Balanced floor place code entry exit) (hle : floor' ≤ floor) :
    Balanced floor' place code entry exit := by
  obtain ⟨depth, hentry, hexit, hcode⟩ := h
  exact ⟨depth, hentry, hexit, hcode.floor_mono hle⟩

end Balanced

end Instr

namespace Emit

variable {a b : Emit} {entry middle exit : Nat}

/-- **Whatever an emitter yields** takes the stack from `entry` to `exit` above any depth, which it never pops below. -/
def Shifts (e : Emit) (entry exit : Nat) : Prop :=
  ∀ place keys code keys', e.Yields place keys code keys' →
    ∀ d, Instr.Balanced d place code (d + entry) (d + exit)

theorem nothing_shifts : nothing.Shifts entry entry := by
  intro place keys code keys' h d
  obtain ⟨rfl, -⟩ := yields_nothing.1 h
  exact .nil

theorem push_shifts {i : Instr} (hjump : i.target? = none) (hpops : i.pops ≤ entry)
    (hexit : exit + i.pops = entry + i.pushes) : (push i).Shifts entry exit := by
  intro place keys code keys' h d
  obtain ⟨rfl, -⟩ := yields_push.1 h
  exact .single hjump (by omega) (by omega)

theorem fail_shifts {failure : Failure} : (fail failure).Shifts entry exit :=
  fun _ _ _ _ h => (not_yields_fail h).elim

theorem Shifts.append (ha : a.Shifts entry middle) (hb : b.Shifts middle exit) : (a ++ b).Shifts entry exit := by
  intro place keys code keys' h d
  obtain ⟨first, keys₁, second, h₁, h₂, rfl⟩ := yields_append.1 h
  exact (ha _ _ _ _ h₁ d).append (hb _ _ _ _ h₂ d)

/-- What is already on the stack stays there. -/
theorem Shifts.above (ha : a.Shifts entry exit) (n : Nat) : a.Shifts (n + entry) (n + exit) := by
  intro place keys code keys' h d
  have := ha _ _ _ _ h (d + n)
  rw [Nat.add_assoc, Nat.add_assoc] at this
  exact this.floor_mono (Nat.le_add_right d n)

theorem Shifts.jumpOver {jump : Nat → Instr} (htarget : ∀ place, (jump place).target? = some place)
    (hpops : ∀ place, (jump place).pops = 1) (hpushes : ∀ place, (jump place).pushes = 0)
    (ha : a.Shifts entry entry) : (jumpOver jump a).Shifts (entry + 1) entry := by
  intro place keys code keys' h d
  obtain ⟨inner, hinner, rfl⟩ := yields_jumpOver.1 h
  exact .jumpOver (htarget _) (hpops _) (hpushes _) (Nat.le_add_right d entry) (ha _ _ _ _ hinner d)

theorem Shifts.branch (ha : a.Shifts 0 1) (hb : b.Shifts 0 1) : (branch a b).Shifts 1 1 := by
  intro place keys code keys' h d
  obtain ⟨first, keys₁, second, h₁, h₂, rfl⟩ := yields_branch.1 h
  exact .branch (Nat.le_refl d) (ha _ _ _ _ h₁ d) (hb _ _ _ _ h₂ d)

theorem key_shifts (env : Env) (name : String) : (key env name).Shifts 0 1 := by
  intro place keys code keys' h d
  obtain ⟨field, rfl⟩ | ⟨index, rfl⟩ := code_of_yields_key h
  · exact .single rfl (Nat.le_refl d) rfl
  · exact .single rfl (Nat.le_refl d) rfl

theorem Shifts.memberKey (ha : a.Shifts 0 1) (env : Env) (upperCase : Bool) (name : Expr) :
    (memberKey env upperCase name a).Shifts 0 1 := by
  unfold Emit.memberKey
  split
  · split
    · exact key_shifts env _
    · exact fail_shifts
  · exact ha.append (push_shifts rfl (by decide) rfl)

theorem Shifts.binary {i : Instr} (hjump : i.target? = none) (hpops : i.pops = 2) (hpushes : i.pushes = 1)
    (ha : a.Shifts 0 1) (hb : b.Shifts 0 1) : (a ++ b ++ push i).Shifts 0 1 :=
  (ha.append (hb.above 1)).append (push_shifts hjump (by omega) (by omega))

/-- **A value that is kept, or dropped for another one**: the jump takes the copy, so both ways meet one above the
start. -/
theorem Shifts.keepOr {jump : Nat → Instr} (htarget : ∀ place, (jump place).target? = some place)
    (hpops : ∀ place, (jump place).pops = 1) (hpushes : ∀ place, (jump place).pushes = 0)
    (ha : a.Shifts 0 1) (hb : b.Shifts 0 1) :
    (a ++ push .dup ++ Emit.jumpOver jump (push .pop ++ b)).Shifts 0 1 := by
  have hdup : (push .dup).Shifts 1 2 := push_shifts rfl (by decide) rfl
  have hpop : (push .pop).Shifts 1 0 := push_shifts rfl (by decide) rfl
  exact (ha.append hdup).append (.jumpOver htarget hpops hpushes (hpop.append hb))

end Emit

theorem Constant.emit_shifts (env : Emit.Env) (c : Constant) : (c.emit env).Shifts 0 1 := by
  unfold Constant.emit
  split
  case h_7 =>
    split
    · exact Emit.push_shifts rfl (Nat.le_refl 0) rfl
    · have hscope : (Emit.push (.loadScope .undefined)).Shifts 0 1 := Emit.push_shifts rfl (Nat.le_refl 0) rfl
      exact .binary rfl rfl rfl hscope (Emit.key_shifts env "null")
  all_goals exact Emit.push_shifts rfl (Nat.le_refl 0) rfl

namespace Expr

open Emit (push_shifts)

theorem loadScope_shifts (scope : Scope) : (Emit.push (.loadScope scope)).Shifts 0 1 :=
  push_shifts rfl (Nat.le_refl 0) rfl

mutual

/-- **The code of an expression pushes one value.** -/
theorem emit_shifts (env : Emit.Env) : ∀ e : Expr, (e.emit env).Shifts 0 1
  | .literal lit => by
    rw [emit]
    exact lit.value.emit_shifts env
  | .newStruct => by
    rw [emit]
    exact push_shifts rfl (Nat.le_refl 0) rfl
  | .newArray => by
    rw [emit]
    exact push_shifts rfl (Nat.le_refl 0) rfl
  | .var scope members _ => by
    rw [emit]
    exact (loadScope_shifts scope).append (emitMembers_shifts env rfl rfl rfl members)
  | .cast e target _ => by
    rw [emit]
    split
    · exact push_shifts rfl (Nat.le_refl 0) rfl
    · exact (emit_shifts env e).append (push_shifts rfl (Nat.le_refl 1) rfl)
  | .concat l r _ => by
    rw [emit]
    exact .binary rfl rfl rfl (emit_shifts env l) (emit_shifts env r)
  | .logic op l r _ => by
    rw [emit]
    split
    · rename_i jump hjump
      -- only the two operators that decide early have a jump
      cases op with
      | and =>
        cases hjump
        exact .keepOr (fun _ => rfl) (fun _ => rfl) (fun _ => rfl) (emit_shifts env l) (emit_shifts env r)
      | or =>
        cases hjump
        exact .keepOr (fun _ => rfl) (fun _ => rfl) (fun _ => rfl) (emit_shifts env l) (emit_shifts env r)
      | _ => cases hjump
    · exact .binary rfl rfl rfl (emit_shifts env l) (emit_shifts env r)
  | .arith op l r _ => by
    rw [emit]
    exact .binary rfl rfl rfl (emit_shifts env l) (emit_shifts env r)
  | .decision op l r _ => by
    rw [emit]
    exact .binary rfl rfl rfl (emit_shifts env l) (emit_shifts env r)
  | .not e _ => by
    rw [emit]
    exact (emit_shifts env e).append (push_shifts rfl (Nat.le_refl 1) rfl)
  | .signed .plus e _ => by
    rw [emit]
    exact emit_shifts env e
  | .signed .minus e _ => by
    rw [emit]
    exact (emit_shifts env e).append (push_shifts rfl (Nat.le_refl 1) rfl)
  | .assign scope members _ op value kind span => by
    rw [emit]
    split
    · exact Emit.fail_shifts
    · rename_i hmembers
      have htarget : (emitTarget env members).Shifts 1 2 :=
        emitTarget_shifts env members (by simpa using hmembers)
      have hassign : (Emit.push (.assign op kind)).Shifts 3 1 := push_shifts rfl (Nat.le_refl 3) rfl
      exact (((loadScope_shifts scope).append htarget).append ((emit_shifts env value).above 2)).append hassign
  | .conditional c l r _ => by
    rw [emit]
    exact (emit_shifts env c).append ((emit_shifts env l).branch (emit_shifts env r))
  | .elvis scope members _ r _ => by
    rw [emit]
    have hmembers : (emitMembers env .getMemberOrNull members).Shifts 1 1 :=
      emitMembers_shifts env rfl rfl rfl members
    have hmember := (loadScope_shifts scope).append hmembers
    exact .keepOr (fun _ => rfl) (fun _ => rfl) (fun _ => rfl) hmember (emit_shifts env r)

/-- From a collection to one of its members, or of theirs. -/
theorem emitMembers_shifts (env : Emit.Env) {get : Instr} (hjump : get.target? = none) (hpops : get.pops = 2)
    (hpushes : get.pushes = 1) : ∀ members : List Expr, (emitMembers env get members).Shifts 1 1
  | [] => by
    rw [emitMembers]
    exact Emit.nothing_shifts
  | m :: ms => by
    rw [emitMembers]
    have hkey := (emit_shifts env m).memberKey env env.settings.dotNotationUpperCase m
    have hget : (Emit.push get).Shifts 2 1 := push_shifts hjump (by omega) (by omega)
    exact ((hkey.above 1).append hget).append (emitMembers_shifts env hjump hpops hpushes ms)

/-- From a collection to the one that holds a member, and the key of the member above it. -/
theorem emitTarget_shifts (env : Emit.Env) : ∀ members : List Expr, members ≠ [] → (emitTarget env members).Shifts 1 2
  | [], h => absurd rfl h
  | [m], _ => by
    rw [emitTarget]
    exact ((emit_shifts env m).memberKey env env.settings.dotNotationUpperCase m).above 1
  | m :: m' :: ms, _ => by
    rw [emitTarget]
    have hkey := (emit_shifts env m).memberKey env env.settings.dotNotationUpperCase m
    have hget : (Emit.push .getMember).Shifts 2 1 := push_shifts rfl (Nat.le_refl 2) rfl
    exact ((hkey.above 1).append hget).append (emitTarget_shifts env (m' :: ms) (List.cons_ne_nil m' ms))

end

end Expr

namespace CodeUnit

/-- **What was emitted from a place on is well formed**: every jump has its place and leads forward, at most to the end,
and over any depth the stack has one depth at each place, rises by one from the start to the end, and is never popped
below the depth at the start. -/
structure WellFormedFrom (start : Nat) (u : CodeUnit) : Prop where
  forward : ∀ (place target : Nat) (i : Instr), start ≤ place → u.code[place]? = some i → i.target? = some target →
    place < target ∧ target ≤ u.code.size
  placed : ∀ (place : Nat) (i : Instr), start ≤ place → u.code[place]? = some i →
    u.code.size < Instr.unknownPlace → i.target? ≠ some Instr.unknownPlace
  depths : ∀ d, ∃ depth : Nat → Nat, depth start = d ∧ depth u.code.size = d + 1 ∧
    ∀ (place : Nat) (i : Instr), start ≤ place → u.code[place]? = some i → i.Steady depth d place

/-- The emitted part of a unit, by the place in the unit. -/
theorem getElem?_append_emission (u : CodeUnit) (e : Emit) {place : Nat} {i : Instr} (hplace : u.code.size ≤ place)
    (h : (u.append e).2.code[place]? = some i) : (e.run u.code.size u.keys).code[place - u.code.size]? = some i := by
  have hcode : (u.append e).2.code = u.code ++ (e.run u.code.size u.keys).code.toArray := rfl
  rwa [hcode, Array.getElem?_append_right hplace, List.getElem?_toArray] at h

/-- **The code of every expression is well formed**, wherever in a unit it is written. -/
theorem write_wellFormed (u : CodeUnit) (e : Expr) (h : (u.write e).1 = .ok ()) :
    (u.write e).2.WellFormedFrom u.code.size := by
  rw [write_eq_append] at h ⊢
  have hyields := Emit.yields_of_failure_none (Emission.outcome_eq_ok_iff.1 h)
  have hbalanced := e.emit_shifts u.env _ _ _ _ hyields
  have hsize := u.size_append (e.emit u.env)
  have hget := @u.getElem?_append_emission (e.emit u.env)
  have hforward : ∀ (place target : Nat) (i : Instr), u.code.size ≤ place →
      (u.append (e.emit u.env)).2.code[place]? = some i → i.target? = some target →
      place < target ∧ target ≤ (u.append (e.emit u.env)).2.code.size := by
    intro place target i hplace hi ht
    obtain ⟨depth, -, -, hlevels⟩ := hbalanced 0
    have := hlevels.forward _ i target (hget hplace hi) ht
    omega
  refine ⟨hforward, fun place i hplace hi hsmall ht => ?_, fun d => ?_⟩
  · have := (hforward place _ i hplace hi ht).2
    omega
  · obtain ⟨depth, hstart, hend, hlevels⟩ := hbalanced d
    refine ⟨depth, hstart, ?_, fun place i hplace hi => ?_⟩
    · rw [hsize]
      exact hend
    · have := hlevels.steady _ i (hget hplace hi)
      rwa [Nat.add_sub_cancel' hplace] at this

/-- An assignment to a member whose name is decided when it runs, and so is the value. -/
def decidedAssignment : Expr :=
  .assign .vars [.elvis .vars [.literal ⟨.string "name", none⟩] none (.literal ⟨.string "other", none⟩) none] none none
    (.conditional (.logic .and (.literal ⟨.boolean true, none⟩) (.literal ⟨.boolean false, none⟩) none)
      (.literal ⟨.integer 1, none⟩) (.literal ⟨.integer 2, none⟩) none) .pre none

theorem write_decidedAssignment_wellFormed :
    ((new {} "unit").write decidedAssignment).1 = .ok () ∧
      ((new {} "unit").write decidedAssignment).2.code.size = 19 ∧
      ((new {} "unit").write decidedAssignment).2.WellFormedFrom 0 :=
  ⟨by rfl, by rfl, write_wellFormed (new {} "unit") decidedAssignment (by rfl)⟩

end CodeUnit

end LooseExpr
