import LooseExpr.Expr.Lower
import LooseExpr.Expr.Casting
/-!
# The nodes of a tree

`Expr.nodes` lists every node of a tree in the order in which an evaluation comes to it: a node before the nodes below
it, and these from left to right, the names of a target before the value that is assigned.  Names of members are nodes
like all others, and the variable on the left of an elvis is a node of its own.
-/
namespace LooseExpr

mutual

def Expr.nodes : Expr → List Expr
  | .literal lit => [.literal lit]
  | .newStruct => [.newStruct]
  | .newArray => [.newArray]
  | .var scope members span => .var scope members span :: Expr.nodesAll members
  | .cast e target span => .cast e target span :: e.nodes
  | .concat l r span => .concat l r span :: (l.nodes ++ r.nodes)
  | .logic op l r span => .logic op l r span :: (l.nodes ++ r.nodes)
  | .arith op l r span => .arith op l r span :: (l.nodes ++ r.nodes)
  | .decision op l r span => .decision op l r span :: (l.nodes ++ r.nodes)
  | .not e span => .not e span :: e.nodes
  | .signed op e span => .signed op e span :: e.nodes
  | .assign scope members varSpan op value kind span =>
    .assign scope members varSpan op value kind span :: (Expr.nodesAll members ++ value.nodes)
  | .conditional c l r span => .conditional c l r span :: (c.nodes ++ (l.nodes ++ r.nodes))
  | .elvis scope members varSpan r span =>
    .elvis scope members varSpan r span :: .var scope members varSpan :: (Expr.nodesAll members ++ r.nodes)

def Expr.nodesAll : List Expr → List Expr
  | [] => []
  | e :: es => e.nodes ++ Expr.nodesAll es

end

namespace Expr

theorem self_mem_nodes (e : Expr) : e ∈ e.nodes := by
  cases e <;> simp [nodes]

/-- The names of members in a node. -/
def names : Expr → List Expr
  | var _ members _ => members
  | assign _ members _ _ _ _ _ => members
  | _ => []

/-- A literal without a text, which no member can be named by, under any number of casts to text. -/
def isNullName (name : Expr) : Bool :=
  match name.stripTextCasts with
  | literal lit => lit.value = .null ∨ lit.value = .nullWord
  | _ => false

/-- The rejection of a node that assigns to a scope and not to a variable in it. -/
def scopeTarget? : Expr → Option Failure
  | assign scope [] _ _ _ _ span => some (.rejected (.scopeTarget scope) span)
  | _ => none

theorem scopeTarget?_eq_some_iff {node : Expr} {failure : Failure} : node.scopeTarget? = some failure ↔
    ∃ scope varSpan op value kind span, node = .assign scope [] varSpan op value kind span ∧
      failure = .rejected (.scopeTarget scope) span := by
  constructor
  · intro h
    unfold scopeTarget? at h
    split at h
    · cases h
      exact ⟨_, _, _, _, _, _, rfl, rfl⟩
    · cases h
  · rintro ⟨scope, varSpan, op, value, kind, span, rfl, rfl⟩
    rfl

/-- **A literal holds no names and no assignment**, whatever casts to text are around it. -/
theorem nodes_of_stripTextCasts {name : Expr} {lit : Literal} (h : name.stripTextCasts = .literal lit) :
    ∀ node ∈ name.nodes, node.names = [] ∧ node.scopeTarget? = none := by
  induction name using stripTextCasts.induct with
  | case1 e target span htext ih =>
    rw [stripTextCasts, if_pos htext] at h
    intro node hnode
    rcases List.mem_cons.1 hnode with rfl | hnode
    · exact ⟨rfl, rfl⟩
    · exact ih h node hnode
  | case2 e target span htext =>
    rw [stripTextCasts, if_neg htext] at h
    cases h
  | case3 e hcast =>
    cases e with
    | literal lit => simp [nodes, names, scopeTarget?]
    | cast e target span => exact (hcast e target span rfl).elim
    | _ => cases h

end Expr

end LooseExpr
