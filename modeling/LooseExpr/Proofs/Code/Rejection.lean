import LooseExpr.Expr.Build
import LooseExpr.Proofs.Code.Uses
import LooseExpr.Proofs.Nodes
/-!
# Trees that are rejected

Lowering and emission go through a tree in the same order.  Both reject an assignment to a scope itself, wherever it
stands, and the first one in that order is what they report.  Emission also rejects a member that is named by nothing,
which lowering leaves to the evaluation (`Expr.rejections_agree`).

How an emitter fails does not depend on where it begins, nor on the keys so far, so its failure is a property of the
emitter (`Emit.FailsAs`).  Of two emitters one after the other, the first one that fails decides.
-/
namespace LooseExpr

/-! ## Lowering -/

section

variable {α β γ : Type}

/-- The failure that stands in the place of a result. -/
def failureOf : Except Failure α → Option Failure
  | .ok _ => none
  | .error failure => some failure

theorem failureOf_eq_some_iff {x : Except Failure α} {failure : Failure} :
    failureOf x = some failure ↔ x = .error failure := by
  cases x <;> simp [failureOf]

theorem failureOf_map (x : Except Failure α) (f : α → β) : failureOf (do return f (← x)) = failureOf x := by
  cases x <;> rfl

theorem failureOf_map₂ (x : Except Failure α) (y : Except Failure β) (f : α → β → γ) :
    failureOf (do return f (← x) (← y)) = (failureOf x).or (failureOf y) := by
  cases x with
  | error failure => rfl
  | ok a => exact failureOf_map y (f a)

theorem failureOf_bind_map₂ {δ : Type} (x : Except Failure α) (y : Except Failure β) (z : Except Failure γ)
    (f : α → β → γ → δ) :
    failureOf (do return f (← x) (← y) (← z)) = (failureOf x).or ((failureOf y).or (failureOf z)) := by
  cases x with
  | error failure => rfl
  | ok a => exact failureOf_map₂ y z (f a)

end

mutual

/-- **Lowering fails at the first assignment to a scope**, and nowhere else. -/
theorem Expr.failureOf_lower (settings : Settings) : ∀ e : Expr, failureOf (e.lower settings) =
    e.nodes.findSome? Expr.scopeTarget?
  | .literal lit => by rw [lower]; rfl
  | .newStruct => by rw [lower]; rfl
  | .newArray => by rw [lower]; rfl
  | .var scope members span => by
    rw [lower, failureOf_map, failureOf_lowerAll settings members]
    simp [nodes, scopeTarget?, List.findSome?_cons]
  | .cast e target span => by
    rw [lower, failureOf_map, failureOf_lower settings e]
    simp [nodes, scopeTarget?, List.findSome?_cons]
  | .concat l r span => by
    rw [lower, failureOf_map₂, failureOf_lower settings l, failureOf_lower settings r]
    simp [nodes, scopeTarget?, List.findSome?_cons]
  | .logic op l r span => by
    rw [lower, failureOf_map₂, failureOf_lower settings l, failureOf_lower settings r]
    simp [nodes, scopeTarget?, List.findSome?_cons]
  | .arith op l r span => by
    rw [lower, failureOf_map₂, failureOf_lower settings l, failureOf_lower settings r]
    simp [nodes, scopeTarget?, List.findSome?_cons]
  | .decision op l r span => by
    rw [lower, failureOf_map₂, failureOf_lower settings l, failureOf_lower settings r]
    simp [nodes, scopeTarget?, List.findSome?_cons]
  | .not e span => by
    rw [lower, failureOf_map, failureOf_lower settings e]
    simp [nodes, scopeTarget?, List.findSome?_cons]
  | .signed op e span => by
    rw [lower, failureOf_map, failureOf_lower settings e]
    simp [nodes, scopeTarget?, List.findSome?_cons]
  | .assign scope [] varSpan op value kind span => by
    rw [lower]
    simp [nodes, scopeTarget?, List.findSome?_cons]
    rfl
  | .assign scope (m :: ms) varSpan op value kind span => by
    rw [lower, if_neg (by simp)]
    have hrest := failureOf_map₂ (lowerAll settings (m :: ms)) (value.lower settings)
      fun members value => Ref.assign scope members op value kind
    rw [failureOf_lowerAll settings (m :: ms), failureOf_lower settings value] at hrest
    simpa only [nodes, scopeTarget?, List.findSome?_cons, List.findSome?_append] using hrest
  | .conditional c l r span => by
    rw [lower, failureOf_bind_map₂, failureOf_lower settings c, failureOf_lower settings l, failureOf_lower settings r]
    simp [nodes, scopeTarget?, List.findSome?_cons]
  | .elvis scope members varSpan r span => by
    rw [lower, failureOf_map₂ _ _ fun members r => Ref.elvis (.var scope members) r,
      failureOf_lowerAll settings members, failureOf_lower settings r]
    simp [nodes, scopeTarget?, List.findSome?_cons]

theorem Expr.failureOf_lowerAll (settings : Settings) : ∀ es : List Expr,
    failureOf (Expr.lowerAll settings es) = (Expr.nodesAll es).findSome? Expr.scopeTarget?
  | [] => by rw [lowerAll]; rfl
  | e :: es => by
    rw [lowerAll, failureOf_map₂, failureOf_lower settings e, failureOf_lowerAll settings es]
    simp [nodesAll]

end

/-! ## Emission -/

namespace Emit

variable {a b : Emit} {first second : Option Failure}

/-- The failure of the emitter, or none, wherever it begins. -/
def FailsAs (a : Emit) (failure : Option Failure) : Prop := ∀ place keys, (a.run place keys).failure = failure

theorem FailsAs.append (ha : a.FailsAs first) (hb : b.FailsAs second) : (a ++ b).FailsAs (first.or second) := by
  intro place keys
  have hfirst := ha place keys
  cases first with
  | some failure => rw [run_append_of_some hfirst, hfirst, Option.some_or]
  | none =>
    rw [run_append_of_none hfirst, Option.none_or]
    exact hb _ _

theorem key_failsAs (env : Env) (name : String) : (key env name).FailsAs none := by
  intro place keys
  unfold key
  cases Key.fieldName? name <;> rfl

/-- **The emitter rejects what lowering rejects in the nodes**, unless a member is named by nothing there, or `nullName`
says so; then it fails in any case. -/
def Rejects (a : Emit) (nullName : Bool) (nodes : List Expr) : Prop :=
  ∃ failure, a.FailsAs failure ∧
    ((nullName || nodes.any fun node => node.names.any Expr.isNullName) = false →
      failure = nodes.findSome? Expr.scopeTarget?) ∧
    ((nullName || nodes.any fun node => node.names.any Expr.isNullName) = true → failure.isSome = true)

namespace Rejects

variable {nullName nullName' : Bool} {nodes nodes' : List Expr}

theorem nothing : Emit.nothing.Rejects false [] := ⟨none, fun _ _ => rfl, fun _ => rfl, nofun⟩

theorem push (i : Instr) : (Emit.push i).Rejects false [] := ⟨none, fun _ _ => rfl, fun _ => rfl, nofun⟩

theorem key (env : Env) (name : String) : (Emit.key env name).Rejects false [] :=
  ⟨none, key_failsAs env name, fun _ => rfl, nofun⟩

/-- A node in front of which only its names were looked at so far. -/
theorem node {node : Expr} (hnode : node.scopeTarget? = none) (ha : a.Rejects (node.names.any Expr.isNullName) nodes) :
    a.Rejects false (node :: nodes) := by
  obtain ⟨failure, hfailure, hplain, hnull⟩ := ha
  refine ⟨failure, hfailure, ?_, ?_⟩
  · rw [Bool.false_or, List.any_cons, List.findSome?_cons, hnode]
    exact hplain
  · rw [Bool.false_or, List.any_cons]
    exact hnull

theorem append (ha : a.Rejects nullName nodes) (hb : b.Rejects nullName' nodes') :
    (a ++ b).Rejects (nullName || nullName') (nodes ++ nodes') := by
  obtain ⟨first, hfirst, hplain, hnull⟩ := ha
  obtain ⟨second, hsecond, hplain', hnull'⟩ := hb
  refine ⟨first.or second, hfirst.append hsecond, ?_, ?_⟩
  · simp only [Bool.or_eq_false_iff, List.any_append, List.findSome?_append] at hplain hplain' ⊢
    rintro ⟨⟨hn, hn'⟩, h, h'⟩
    rw [hplain ⟨hn, h⟩, hplain' ⟨hn', h'⟩]
  · simp only [Bool.or_eq_true, List.any_append, Option.isSome_or] at hnull hnull' ⊢
    rintro ((hn | hn') | (h | h'))
    · exact .inl (hnull (.inl hn))
    · exact .inr (hnull' (.inl hn'))
    · exact .inl (hnull (.inr h))
    · exact .inr (hnull' (.inr h'))

theorem jumpOver (jump : Nat → Instr) (ha : a.Rejects nullName nodes) : (Emit.jumpOver jump a).Rejects nullName nodes := by
  obtain ⟨failure, hfailure, h⟩ := ha
  exact ⟨failure, fun place keys => hfailure (place + 1) keys, h⟩

theorem branch (ha : a.Rejects nullName nodes) (hb : b.Rejects nullName' nodes') :
    (Emit.branch a b).Rejects (nullName || nullName') (nodes ++ nodes') := by
  obtain ⟨failure, hfailure, h⟩ := ha.append (hb.jumpOver .jump)
  refine ⟨failure, fun place keys => ?_, h⟩
  rw [run_branch]
  exact hfailure (place + 1) keys

theorem andPush (ha : a.Rejects nullName nodes) (i : Instr) : (a ++ Emit.push i).Rejects nullName nodes := by
  simpa using ha.append (push i)

theorem afterPush (i : Instr) (ha : a.Rejects nullName nodes) : (Emit.push i ++ a).Rejects nullName nodes := by
  simpa using (push i).append ha

theorem binary (i : Instr) (ha : a.Rejects nullName nodes) (hb : b.Rejects false nodes') :
    (a ++ b ++ Emit.push i).Rejects nullName (nodes ++ nodes') := by
  simpa using (ha.append hb).andPush i

theorem keepOr (jump : Nat → Instr) (ha : a.Rejects nullName nodes) (hb : b.Rejects false nodes') :
    (a ++ Emit.push .dup ++ Emit.jumpOver jump (Emit.push .pop ++ b)).Rejects nullName (nodes ++ nodes') := by
  simpa using (ha.andPush .dup).append ((hb.afterPush .pop).jumpOver jump)

/-- A literal name is not looked into, and need not be: it holds nothing that could be rejected. -/
theorem memberKey {env : Env} {name : Expr} (upperCase : Bool) (ha : a.Rejects false name.nodes) :
    (Emit.memberKey env upperCase name a).Rejects name.isNullName name.nodes := by
  unfold Emit.memberKey Expr.isNullName
  cases hname : name.stripTextCasts with
  | literal lit =>
    have hnodes := Expr.nodes_of_stripTextCasts hname
    have hnull : (name.nodes.any fun node => node.names.any Expr.isNullName) = false := by
      rw [List.any_eq_false]
      intro node hnode
      simp [(hnodes node hnode).1]
    have htarget : name.nodes.findSome? Expr.scopeTarget? = none :=
      List.findSome?_eq_none_iff.2 fun node hnode => (hnodes node hnode).2
    unfold Rejects
    simp only [lit.text?_upperCased, hnull, htarget, Bool.or_false]
    cases lit.value with
    | null => exact ⟨some _, fun _ _ => rfl, fun h => by simp at h, fun _ => rfl⟩
    | nullWord => exact ⟨some _, fun _ _ => rfl, fun h => by simp at h, fun _ => rfl⟩
    | _ => exact ⟨none, key_failsAs env _, fun _ => rfl, fun h => by simp at h⟩
  | _ => exact ha.andPush .toKey

end Rejects

end Emit

theorem Constant.emit_rejects (env : Emit.Env) (c : Constant) : (c.emit env).Rejects false [] := by
  cases c with
  | nullWord =>
    unfold emit
    by_cases hnull : env.settings.nullSupport = true
    · rw [if_pos hnull]
      exact .push _
    · rw [if_neg hnull]
      exact ((Emit.Rejects.key env "null").afterPush _).andPush _
  | _ => exact .push _

namespace Expr

open Emit (Rejects)

mutual

theorem emit_rejects (env : Emit.Env) : ∀ e : Expr, (e.emit env).Rejects false e.nodes
  | .literal lit => by
    rw [emit, nodes]
    exact Rejects.node rfl (lit.value.emit_rejects env)
  | .newStruct => by
    rw [emit, nodes]
    exact Rejects.node rfl (.push _)
  | .newArray => by
    rw [emit, nodes]
    exact Rejects.node rfl (.push _)
  | .var scope members span => by
    rw [emit, nodes]
    exact Rejects.node rfl ((emitMembers_rejects env .getMember members).afterPush _)
  | .cast e target span => by
    rw [emit, nodes]
    split
    · rename_i text htext
      have hliteral : e.literalText? = some text := by
        by_cases htarget : target.staticType = .string
        · rwa [if_pos htarget] at htext
        · rw [if_neg htarget] at htext
          cases htext
      cases e with
      | literal lit => exact Rejects.node rfl (.node rfl (.push _))
      | _ => cases hliteral
    · exact Rejects.node rfl ((emit_rejects env e).andPush _)
  | .concat l r span => by
    rw [emit, nodes]
    exact Rejects.node rfl ((emit_rejects env l).binary _ (emit_rejects env r))
  | .logic op l r span => by
    rw [emit, nodes]
    cases op with
    | and => exact Rejects.node rfl ((emit_rejects env l).keepOr _ (emit_rejects env r))
    | or => exact Rejects.node rfl ((emit_rejects env l).keepOr _ (emit_rejects env r))
    | _ => exact Rejects.node rfl ((emit_rejects env l).binary _ (emit_rejects env r))
  | .arith op l r span => by
    rw [emit, nodes]
    exact Rejects.node rfl ((emit_rejects env l).binary _ (emit_rejects env r))
  | .decision op l r span => by
    rw [emit, nodes]
    exact Rejects.node rfl ((emit_rejects env l).binary _ (emit_rejects env r))
  | .not e span => by
    rw [emit, nodes]
    exact Rejects.node rfl ((emit_rejects env e).andPush _)
  | .signed .plus e span => by
    rw [emit, nodes]
    exact Rejects.node rfl (emit_rejects env e)
  | .signed .minus e span => by
    rw [emit, nodes]
    exact Rejects.node rfl ((emit_rejects env e).andPush _)
  | .assign scope [] varSpan op value kind span => by
    rw [emit, nodes]
    exact ⟨some _, fun _ _ => rfl, fun _ => rfl, fun _ => rfl⟩
  | .assign scope (m :: ms) varSpan op value kind span => by
    rw [emit, nodes]
    exact Rejects.node rfl (((emitTarget_rejects env (m :: ms)).afterPush _).binary _ (emit_rejects env value))
  | .conditional c l r span => by
    rw [emit, nodes]
    exact Rejects.node rfl ((emit_rejects env c).append ((emit_rejects env l).branch (emit_rejects env r)))
  | .elvis scope members varSpan r span => by
    rw [emit, nodes]
    refine Rejects.node rfl (Rejects.node rfl ?_)
    exact ((emitMembers_rejects env .getMemberOrNull members).afterPush _).keepOr _ (emit_rejects env r)

theorem emitMembers_rejects (env : Emit.Env) (get : Instr) : ∀ members : List Expr,
    (emitMembers env get members).Rejects (members.any isNullName) (nodesAll members)
  | [] => by
    rw [emitMembers, nodesAll]
    exact .nothing
  | m :: ms => by
    rw [emitMembers, nodesAll]
    exact (((emit_rejects env m).memberKey _).andPush get).append (emitMembers_rejects env get ms)

theorem emitTarget_rejects (env : Emit.Env) : ∀ members : List Expr,
    (emitTarget env members).Rejects (members.any isNullName) (nodesAll members)
  | [] => by
    rw [emitTarget, nodesAll]
    exact .nothing
  | [m] => by
    rw [emitTarget, nodesAll, nodesAll, List.append_nil, List.any_cons, List.any_nil, Bool.or_false]
    exact (emit_rejects env m).memberKey _
  | m :: m' :: ms => by
    rw [emitTarget, nodesAll]
    exact (((emit_rejects env m).memberKey _).andPush .getMember).append (emitTarget_rejects env (m' :: ms))

end

/-! ## Both -/

theorem exists_lower_error_iff (e : Expr) (settings : Settings) : (∃ failure, e.lower settings = .error failure) ↔
    (e.nodes.findSome? scopeTarget?).isSome = true := by
  simp only [← failureOf_eq_some_iff, failureOf_lower, Option.isSome_iff_exists]

/-- **Lowering and emission reject the same trees, but for members named by nothing.**  Lowering fails if the tree holds
an assignment to a scope itself, and emission into any unit if it does or if a member in it is named by nothing.  If
none is, both fail alike, with what is to be said of the first such assignment in the order of evaluation. -/
theorem rejections_agree (e : Expr) (settings : Settings) (u : CodeUnit) :
    ((∃ failure, e.lower settings = .error failure) ↔
      ∃ scope varSpan op value kind span, assign scope [] varSpan op value kind span ∈ e.nodes) ∧
    ((∃ failure, (u.write e).1 = .error failure) ↔
      (∃ failure, e.lower settings = .error failure) ∨ ∃ node ∈ e.nodes, ∃ name ∈ node.names, name.isNullName = true) ∧
    ((∀ node ∈ e.nodes, ∀ name ∈ node.names, name.isNullName = false) →
      ∀ failure, (u.write e).1 = .error failure ↔ e.lower settings = .error failure) ∧
    ∀ failure, e.lower settings = .error failure →
      ∃ before scope varSpan op value kind span after,
        e.nodes = before ++ assign scope [] varSpan op value kind span :: after ∧
        (∀ node ∈ before, node.scopeTarget? = none) ∧ failure = .rejected (.scopeTarget scope) span ∧
        (Rejection.scopeTarget scope).kind = .compile ∧
        (Rejection.scopeTarget scope).detail = "can't assign to the " ++ scope.name ++ " scope itself" := by
  obtain ⟨result, hresult, hplain, hnull⟩ := e.emit_rejects u.env
  have hwrite : ∀ failure, (u.write e).1 = .error failure ↔ result = some failure := fun failure => by
    rw [u.write_eq_append, ← hresult u.code.size u.keys]
    exact Emission.outcome_eq_error_iff
  rw [Bool.false_or] at hplain hnull
  refine ⟨?_, ?_, ?_, ?_⟩
  · rw [exists_lower_error_iff, List.findSome?_isSome_iff]
    constructor
    · rintro ⟨node, hnode, hsome⟩
      obtain ⟨failure, hfailure⟩ := Option.isSome_iff_exists.1 hsome
      obtain ⟨scope, varSpan, op, value, kind, span, rfl, -⟩ := scopeTarget?_eq_some_iff.1 hfailure
      exact ⟨scope, varSpan, op, value, kind, span, hnode⟩
    · rintro ⟨scope, varSpan, op, value, kind, span, hnode⟩
      exact ⟨_, hnode, rfl⟩
  · simp only [exists_lower_error_iff, hwrite, ← Option.isSome_iff_exists]
    have hnames : (e.nodes.any fun node => node.names.any isNullName) = true ↔
        ∃ node ∈ e.nodes, ∃ name ∈ node.names, name.isNullName = true := by simp
    rw [← hnames]
    by_cases h : (e.nodes.any fun node => node.names.any isNullName) = true
    · simp only [hnull h, h, or_true]
    · rw [hplain (Bool.eq_false_iff.2 h)]
      simp [h]
  · intro hnames failure
    have hfree : (e.nodes.any fun node => node.names.any isNullName) = false := by simpa using hnames
    rw [hwrite, hplain hfree, ← failureOf_eq_some_iff, failureOf_lower]
  · intro failure hfailure
    rw [← failureOf_eq_some_iff, failureOf_lower] at hfailure
    obtain ⟨before, node, after, hnodes, hnode, hbefore⟩ := List.findSome?_eq_some_iff.1 hfailure
    obtain ⟨scope, varSpan, op, value, kind, span, rfl, rfl⟩ := scopeTarget?_eq_some_iff.1 hnode
    exact ⟨before, scope, varSpan, op, value, kind, span, after, hnodes, hbefore, rfl, rfl, rfl⟩

/-- A member of `url` that an assignment to `this` names, joined to an assignment to `form`. -/
def assignmentsToScopes : Expr :=
  .mkConcat
    (.var .url [.mkAssign ⟨.this, [], none⟩ none (.literal ⟨.string "a", none⟩) .pre (some ⟨⟨1, 5, 4⟩, ⟨1, 9, 8⟩⟩)] none)
    (.mkAssign ⟨.form, [], none⟩ (some .plus) (.literal ⟨.integer 1, none⟩) .post none) false

theorem assignmentsToScopes_rejected :
    (∀ node ∈ assignmentsToScopes.nodes, ∀ name ∈ node.names, name.isNullName = false) ∧
      assignmentsToScopes.lower {} = .error (.rejected (.scopeTarget .this) (some ⟨⟨1, 5, 4⟩, ⟨1, 9, 8⟩⟩)) ∧
      ((CodeUnit.new {} "unit").write assignmentsToScopes).1 =
        .error (.rejected (.scopeTarget .this) (some ⟨⟨1, 5, 4⟩, ⟨1, 9, 8⟩⟩)) := by
  have hnames : ∀ node ∈ assignmentsToScopes.nodes, ∀ name ∈ node.names, name.isNullName = false := by decide
  have hlower : assignmentsToScopes.lower {} =
    .error (.rejected (.scopeTarget .this) (some ⟨⟨1, 5, 4⟩, ⟨1, 9, 8⟩⟩)) := by rfl
  obtain ⟨-, -, hsame, -⟩ := rejections_agree assignmentsToScopes {} (CodeUnit.new {} "unit")
  exact ⟨hnames, hlower, (hsame hnames _).2 hlower⟩

end Expr

end LooseExpr
