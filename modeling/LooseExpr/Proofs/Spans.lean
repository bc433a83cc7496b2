import LooseExpr.Expr.Build
/-!
# Spans of operators

An operator stands where its operands stand.  Its span is merged from those of its first and its last operand, so if the
leaves of a tree stand in the order of the source, it covers every operand and is the smallest span that does.  A
conditional has a third operand, in the middle, that is not merged: as long as the outer two are known they reach around
it, but where one of them has no span, it may stick out (`Span.SticksOut`).
-/
namespace LooseExpr

/-! ## Spans in the order of the source -/

namespace Span

def WellFormed (s : Span) : Prop := s.start.offset ≤ s.stop.offset

/-- The order of the source: `b` neither starts nor ends before `a` does. -/
def Before (a b : Span) : Prop := a.start.offset ≤ b.start.offset ∧ a.stop.offset ≤ b.stop.offset

def Covers (a b : Span) : Prop := a.start.offset ≤ b.start.offset ∧ b.stop.offset ≤ a.stop.offset

instance (s : Span) : Decidable s.WellFormed := inferInstanceAs (Decidable (_ ≤ _))

instance (a b : Span) : Decidable (a.Before b) := inferInstanceAs (Decidable (_ ∧ _))

instance (a b : Span) : Decidable (a.Covers b) := inferInstanceAs (Decidable (_ ∧ _))

/-- Spans that do not overlap, one after the other, are in the order of the source. -/
theorem before_of_stop_le_start {a b : Span} (ha : a.WellFormed) (hb : b.WellFormed)
    (h : a.stop.offset ≤ b.start.offset) : a.Before b :=
  ⟨Nat.le_trans ha h, Nat.le_trans h hb⟩

theorem covers_self (s : Span) : s.Covers s := ⟨Nat.le_refl _, Nat.le_refl _⟩

/-- The first span covers the second one, if that is known. -/
def CoversKnown (whole part : Option Span) : Prop := ∀ s ∈ part, ∃ t ∈ whole, t.Covers s

def Precedes (a b : Option Span) : Prop := ∀ s ∈ a, ∀ t ∈ b, s.Before t

variable {a b c l r : Option Span}

theorem merge_coversKnown_left (h : Precedes a b) : CoversKnown (merge a b) a := by
  intro s hs
  cases hs
  cases b with
  | none => exact ⟨s, rfl, covers_self s⟩
  | some t => exact ⟨_, rfl, Nat.le_refl _, (h s rfl t rfl).2⟩

theorem merge_coversKnown_right (h : Precedes a b) : CoversKnown (merge a b) b := by
  intro t ht
  cases ht
  cases a with
  | none => exact ⟨t, rfl, covers_self t⟩
  | some s => exact ⟨_, rfl, (h s rfl t rfl).1, Nat.le_refl _⟩

/-- What is merged is one of the spans, or reaches from the one to the other. -/
theorem mem_merge_cases {s : Span} (hs : s ∈ merge a b) : s ∈ a ∨ s ∈ b ∨ ∃ p ∈ a, ∃ q ∈ b, s = ⟨p.start, q.stop⟩ := by
  cases a with
  | none => exact .inr (.inl hs)
  | some p =>
    cases b with
    | none => exact .inl hs
    | some q => exact .inr (.inr ⟨p, rfl, q, rfl, (Option.some.inj hs).symm⟩)

/-- **No smaller span covers both.** -/
theorem covers_merge {s t : Span} (hs : s ∈ merge a b) (ha : ∀ p ∈ a, t.Covers p) (hb : ∀ p ∈ b, t.Covers p) :
    t.Covers s := by
  rcases mem_merge_cases hs with hs | hs | ⟨p, hp, q, hq, rfl⟩
  · exact ha s hs
  · exact hb s hs
  · exact ⟨(ha p hp).1, (hb q hq).2⟩

theorem merge_wellFormed (ha : ∀ s ∈ a, s.WellFormed) (hb : ∀ s ∈ b, s.WellFormed) (h : Precedes a b) :
    ∀ s ∈ merge a b, s.WellFormed := by
  intro s hs
  rcases mem_merge_cases hs with hs | hs | ⟨p, hp, q, hq, rfl⟩
  · exact ha s hs
  · exact hb s hs
  · exact Nat.le_trans (ha p hp) (h p hp q hq).2

/-- **The middle operand sticks out**: it is known, and an outer one that is not known leaves it uncovered. -/
def SticksOut : Option Span → Option Span → Option Span → Prop
  | _, none, _ => False
  | some _, some _, some _ => False
  | some c, some m, none => c.stop.offset < m.stop.offset
  | none, some m, some r => m.start.offset < r.start.offset
  | none, some _, none => True

theorem merge_coversKnown_middle_iff (hcl : Precedes c l) (hlr : Precedes l r) :
    CoversKnown (merge c r) l ↔ ¬ SticksOut c l r := by
  cases l with
  | none => simp [CoversKnown, SticksOut]
  | some m =>
    cases c with
    | none =>
      cases r with
      | none => simp [CoversKnown, SticksOut, merge]
      | some r =>
        have hafter := (hlr m rfl r rfl).2
        simp [CoversKnown, SticksOut, merge, Covers, hafter]
    | some c =>
      have hbefore := (hcl c rfl m rfl).1
      cases r with
      | none => simp [CoversKnown, SticksOut, merge, Covers, hbefore]
      | some r =>
        have hafter := (hlr m rfl r rfl).2
        simp [CoversKnown, SticksOut, merge, Covers, hbefore, hafter]

end Span

/-! ## Casts keep the place -/

namespace Expr

theorem span_of_fold? {e folded : Expr} {convert : Constant → Option Constant} (h : e.fold? convert = some folded) :
    folded.span = e.span := by
  cases e with
  | literal lit =>
    obtain ⟨value, -, rfl⟩ := Option.map_eq_some_iff.1 h
    rfl
  | _ => cases h

theorem span_foldOrWrap (e : Expr) (convert : Constant → Option Constant) (target : CastTarget) :
    ((e.fold? convert).getD (e.wrap target)).span = e.span := by
  cases h : e.fold? convert with
  | none => rfl
  | some folded => exact span_of_fold? h

@[simp] theorem span_asText (e : Expr) : e.asText.span = e.span := by
  unfold asText
  split <;> rfl

@[simp] theorem span_asBoolean (e : Expr) : e.asBoolean.span = e.span := by
  unfold asBoolean
  split
  · rfl
  · exact span_foldOrWrap e _ _

@[simp] theorem span_asNumber (e : Expr) : e.asNumber.span = e.span := by
  unfold asNumber
  split
  · rfl
  · exact span_foldOrWrap e _ _

/-- The spans of the operands that an operator holds. -/
def operandSpans : Expr → List (Option Span)
  | concat l r _ => [l.span, r.span]
  | logic _ l r _ => [l.span, r.span]
  | arith _ l r _ => [l.span, r.span]
  | decision _ l r _ => [l.span, r.span]
  | conditional c l r _ => [c.span, l.span, r.span]
  | elvis _ _ varSpan r _ => [varSpan, r.span]
  | _ => []

theorem mkConcat_cases (l r : Expr) (atOnce : Bool) :
    (∃ text, mkConcat l r atOnce = literal ⟨.string text, spanOf l r⟩) ∨
      mkConcat l r atOnce = concat l.asText r.asText (spanOf l r) := by
  unfold mkConcat
  split
  · exact .inl ⟨_, rfl⟩
  · exact .inr rfl

end Expr

/-! ## Trees from their leaves -/

inductive Joint where
  | concat (atOnce : Bool)
  | logic (op : BoolOp)
  | arith (op : NumberOp)
  | decision (op : DecisionOp)

namespace Joint

def build : Joint → Expr → Expr → Expr
  | concat atOnce, l, r => Expr.mkConcat l r atOnce
  | logic op, l, r => Expr.mkLogic op l r
  | arith op, l, r => Expr.mkArith op l r
  | decision op, l, r => Expr.mkDecision op l r

theorem span_build (j : Joint) (l r : Expr) : (j.build l r).span = Span.merge l.span r.span := by
  cases j with
  | concat atOnce =>
    obtain ⟨text, h⟩ | h := Expr.mkConcat_cases l r atOnce
    · rw [build, h]; rfl
    · rw [build, h]; rfl
  | _ => rfl

theorem operandSpans_build (j : Joint) (l r : Expr) :
    (j.build l r).operandSpans = [l.span, r.span] ∨ ∃ lit, j.build l r = .literal lit := by
  cases j with
  | concat atOnce =>
    obtain ⟨text, h⟩ | h := Expr.mkConcat_cases l r atOnce
    · exact .inr ⟨_, h⟩
    · exact .inl (by simp [build, h, Expr.operandSpans])
  | logic op => exact .inl (by simp [build, Expr.mkLogic, Expr.operandSpans])
  | arith op => exact .inl (by simp [build, Expr.mkArith, Expr.operandSpans])
  | decision op => exact .inl rfl

end Joint

/-- How a tree is put together from its leaves. -/
inductive Draft where
  | leaf (e : Expr)
  | binary (j : Joint) (l r : Draft)
  | conditional (c l r : Draft)
  | elvis (l : Chain) (r : Draft)

namespace Draft

def build : Draft → Expr
  | leaf e => e
  | binary j l r => j.build l.build r.build
  | conditional c l r => Expr.mkConditional c.build l.build r.build
  | elvis l r => Expr.mkElvis l r.build

def span (d : Draft) : Option Span := d.build.span

def operands : Draft → List Draft
  | leaf _ => []
  | binary _ l r => [l, r]
  | conditional c l r => [c, l, r]
  | elvis l r => [leaf l.toExpr, r]

/-- The operators of a tree, each before those of its operands. -/
def operators : Draft → List Draft
  | leaf _ => []
  | binary j l r => binary j l r :: (l.operators ++ r.operators)
  | conditional c l r => conditional c l r :: (c.operators ++ (l.operators ++ r.operators))
  | elvis l r => elvis l r :: r.operators

/-- The spans of the leaves that are known, from left to right. -/
def leafSpans : Draft → List Span
  | leaf e => e.span.toList
  | binary _ l r => l.leafSpans ++ r.leafSpans
  | conditional c l r => c.leafSpans ++ (l.leafSpans ++ r.leafSpans)
  | elvis l r => l.span.toList ++ r.leafSpans

structure InOrder (d : Draft) : Prop where
  wellFormed : ∀ s ∈ d.leafSpans, s.WellFormed
  pairwise : d.leafSpans.Pairwise Span.Before

def MiddleSticksOut : Draft → Prop
  | conditional c l r => Span.SticksOut c.span l.span r.span
  | _ => False

/-! ### Operators and their operands -/

theorem operand_induction {P : Draft → Prop} (h : ∀ d, (∀ o ∈ d.operands, P o) → P d) : ∀ d, P d
  | leaf e => h _ (by simp [operands])
  | binary j l r => h _ (by simp [operands, operand_induction h l, operand_induction h r])
  | conditional c l r =>
    h _ (by simp [operands, operand_induction h c, operand_induction h l, operand_induction h r])
  | elvis l r => h _ (by simp [operands, h (leaf l.toExpr) (by simp [operands]), operand_induction h r])

/-- **An operator stands from its first operand to its last one.** -/
theorem exists_outer {d : Draft} (h : d.operands ≠ []) : ∃ first middle last,
    d.operands = first :: (middle ++ [last]) ∧ d.span = Span.merge first.span last.span := by
  cases d with
  | leaf e => exact absurd rfl h
  | binary j l r => exact ⟨l, [], r, rfl, j.span_build _ _⟩
  | conditional c l r => exact ⟨c, [l], r, rfl, rfl⟩
  | elvis l r => exact ⟨leaf l.toExpr, [], r, rfl, rfl⟩

theorem leafSpans_of_operands_eq_nil {d : Draft} (h : d.operands = []) : d.leafSpans = d.span.toList := by
  cases d with
  | leaf e => rfl
  | _ => simp [operands] at h

theorem leafSpans_of_operands_ne_nil {d : Draft} (h : d.operands ≠ []) : d.leafSpans = d.operands.flatMap leafSpans := by
  cases d with
  | leaf e => exact absurd rfl h
  | _ => simp [operands, leafSpans, Chain.toExpr, Expr.span]

theorem leafSpans_sublist_of_mem_operands {d o : Draft} (h : o ∈ d.operands) : o.leafSpans.Sublist d.leafSpans := by
  rw [leafSpans_of_operands_ne_nil (List.ne_nil_of_mem h), List.flatMap]
  exact List.sublist_flatten_of_mem (List.mem_map_of_mem h)

theorem mem_operators_iff {d node : Draft} :
    node ∈ d.operators ↔ (node = d ∧ d.operands ≠ []) ∨ ∃ o ∈ d.operands, node ∈ o.operators := by
  cases d <;> simp [operators, operands]

theorem operands_ne_nil_of_mem_operators {d node : Draft} : node ∈ d.operators → node.operands ≠ [] := by
  induction d using operand_induction with
  | h d ih =>
    intro h
    rcases mem_operators_iff.1 h with ⟨rfl, hne⟩ | ⟨o, ho, h⟩
    · exact hne
    · exact ih o ho h

theorem leafSpans_sublist_of_mem_operators {d node : Draft} : node ∈ d.operators →
    node.leafSpans.Sublist d.leafSpans := by
  induction d using operand_induction with
  | h d ih =>
    intro h
    rcases mem_operators_iff.1 h with ⟨rfl, -⟩ | ⟨o, ho, h⟩
    · exact List.Sublist.refl _
    · exact (ih o ho h).trans (leafSpans_sublist_of_mem_operands ho)

/-! ### The spans of a tree come from its leaves -/

/-- The span starts where one of these starts, and ends where one of them ends. -/
def DrawnFrom (spans : List Span) (s : Span) : Prop := (∃ a ∈ spans, s.start = a.start) ∧ ∃ b ∈ spans, s.stop = b.stop

theorem DrawnFrom.mono {spans spans' : List Span} {s : Span} (h : DrawnFrom spans s) (hsub : spans ⊆ spans') :
    DrawnFrom spans' s := by
  obtain ⟨⟨a, ha, hstart⟩, b, hb, hstop⟩ := h
  exact ⟨⟨a, hsub ha, hstart⟩, b, hsub hb, hstop⟩

theorem drawnFrom_merge {spans : List Span} {a b : Option Span} (ha : ∀ s ∈ a, DrawnFrom spans s)
    (hb : ∀ s ∈ b, DrawnFrom spans s) : ∀ s ∈ Span.merge a b, DrawnFrom spans s := by
  intro s hs
  rcases Span.mem_merge_cases hs with hs | hs | ⟨p, hp, q, hq, rfl⟩
  · exact ha s hs
  · exact hb s hs
  · exact ⟨(ha p hp).1, (hb q hq).2⟩

theorem drawnFrom_toList {o : Option Span} : ∀ s ∈ o, DrawnFrom o.toList s := by
  intro s hs
  cases hs
  exact ⟨⟨s, List.mem_singleton_self s, rfl⟩, s, List.mem_singleton_self s, rfl⟩

-- This needs no order of the leaves.  It is all that is asked of an operand when the order of its neighbours is to follow
-- from that of their leaves, and it holds of a conditional whose span does not cover all its leaves as well.
theorem drawnFrom_leafSpans (d : Draft) : ∀ s ∈ d.span, DrawnFrom d.leafSpans s := by
  induction d using operand_induction with
  | h d ih =>
    by_cases hne : d.operands = []
    · rw [leafSpans_of_operands_eq_nil hne]
      exact drawnFrom_toList
    · obtain ⟨first, middle, last, hoperands, hspan⟩ := exists_outer hne
      have hdrawn : ∀ o ∈ d.operands, ∀ s ∈ o.span, DrawnFrom d.leafSpans s := fun o ho s hs =>
        (ih o ho s hs).mono (leafSpans_sublist_of_mem_operands ho).subset
      rw [hspan]
      exact drawnFrom_merge (hdrawn first (by simp [hoperands])) (hdrawn last (by simp [hoperands]))

/-- **What stands left of something else in the leaves does so in the tree.** -/
theorem precedes_of_drawnFrom {left right : List Span} {a b : Option Span} (h : ∀ s ∈ left, ∀ t ∈ right, s.Before t)
    (ha : ∀ s ∈ a, DrawnFrom left s) (hb : ∀ s ∈ b, DrawnFrom right s) : Span.Precedes a b := by
  intro s hs t ht
  obtain ⟨⟨p, hp, hpstart⟩, q, hq, hqstop⟩ := ha s hs
  obtain ⟨⟨p', hp', hpstart'⟩, q', hq', hqstop'⟩ := hb t ht
  unfold Span.Before
  rw [hpstart, hqstop, hpstart', hqstop']
  exact ⟨(h p hp p' hp').1, (h q hq q' hq').2⟩

/-! ### Trees in the order of the source -/

theorem inOrder_of_sublist {d d' : Draft} (h : d.InOrder) (hsub : d'.leafSpans.Sublist d.leafSpans) : d'.InOrder :=
  ⟨fun s hs => h.wellFormed s (hsub.subset hs), h.pairwise.sublist hsub⟩

/-- Leaves that do not overlap stand in the order of the source. -/
theorem inOrder_of_separate {d : Draft} (hwell : ∀ s ∈ d.leafSpans, s.WellFormed)
    (hseparate : d.leafSpans.Pairwise fun a b => a.stop.offset ≤ b.start.offset) : d.InOrder :=
  ⟨hwell, hseparate.imp_of_mem fun ha hb => Span.before_of_stop_le_start (hwell _ ha) (hwell _ hb)⟩

/-- **The operands of an operator stand in the order of the source**, as their leaves do. -/
theorem InOrder.operands {d : Draft} (h : d.InOrder) :
    d.operands.Pairwise fun a b => Span.Precedes a.span b.span := by
  by_cases hne : d.operands = []
  · rw [hne]
    exact .nil
  · have hpairwise := h.pairwise
    rw [leafSpans_of_operands_ne_nil hne, List.pairwise_flatMap] at hpairwise
    exact hpairwise.2.imp fun hab => precedes_of_drawnFrom hab (drawnFrom_leafSpans _) (drawnFrom_leafSpans _)

theorem InOrder.wellFormed_span {d : Draft} : d.InOrder → ∀ s ∈ d.span, s.WellFormed := by
  induction d using operand_induction with
  | h d ih =>
    intro h
    by_cases hne : d.operands = []
    · intro s hs
      exact h.wellFormed s (by rwa [leafSpans_of_operands_eq_nil hne, Option.mem_toList])
    · obtain ⟨first, middle, last, hoperands, hspan⟩ := exists_outer hne
      have hwell : ∀ o ∈ d.operands, ∀ s ∈ o.span, s.WellFormed := fun o ho =>
        ih o ho (inOrder_of_sublist h (leafSpans_sublist_of_mem_operands ho))
      have hprecedes := h.operands
      rw [hoperands] at hprecedes
      rw [hspan]
      exact Span.merge_wellFormed (hwell first (by simp [hoperands])) (hwell last (by simp [hoperands]))
        (List.rel_of_pairwise_cons hprecedes (by simp))

/-! ### What an operator covers -/

theorem coversKnown_outer {a b : Draft} (h : List.Pairwise (fun a b => Span.Precedes a.span b.span) [a, b]) :
    ∀ o ∈ [a, b], Span.CoversKnown (Span.merge a.span b.span) o.span := by
  have hab := List.rel_of_pairwise_cons h (List.mem_singleton_self b)
  simp [Span.merge_coversKnown_left hab, Span.merge_coversKnown_right hab]

/-- **An operator covers its operands**, unless the middle one of a conditional sticks out. -/
theorem InOrder.coversKnown_iff {d : Draft} (h : d.InOrder) :
    (∀ o ∈ d.operands, Span.CoversKnown d.span o.span) ↔ ¬ d.MiddleSticksOut := by
  have hoperands := h.operands
  cases d with
  | leaf e => simp [Draft.operands, MiddleSticksOut]
  | binary j l r =>
    refine iff_of_true ?_ id
    rw [show (binary j l r).span = Span.merge l.span r.span from j.span_build _ _]
    exact coversKnown_outer hoperands
  | conditional c l r =>
    obtain ⟨hc, hlr⟩ := List.pairwise_cons.1 hoperands
    have hcl := hc l (by simp)
    have hcr := hc r (by simp)
    have hlr := List.rel_of_pairwise_cons hlr (List.mem_singleton_self r)
    have hmiddle := Span.merge_coversKnown_middle_iff hcl hlr
    -- the outer two are covered as those of any operator are; the middle one is left to decide
    change (∀ o ∈ [c, l, r], Span.CoversKnown (Span.merge c.span r.span) o.span) ↔ ¬ Span.SticksOut c.span l.span r.span
    simp [hmiddle, Span.merge_coversKnown_left hcr, Span.merge_coversKnown_right hcr]
  | elvis l r => exact iff_of_true (coversKnown_outer hoperands) id

theorem covers_span {d : Draft} (hne : d.operands ≠ []) {t : Span} (h : ∀ o ∈ d.operands, ∀ p ∈ o.span, t.Covers p) :
    ∀ s ∈ d.span, t.Covers s := by
  obtain ⟨first, middle, last, hoperands, hspan⟩ := exists_outer hne
  intro s hs
  rw [hspan] at hs
  exact Span.covers_merge hs (h first (by simp [hoperands])) (h last (by simp [hoperands]))

theorem operandSpans_build {d : Draft} (hne : d.operands ≠ []) :
    d.build.operandSpans = d.operands.map span ∨ ∃ lit, d.build = .literal lit := by
  cases d with
  | leaf e => exact absurd rfl hne
  | binary j l r => exact j.operandSpans_build _ _
  | conditional c l r => exact .inl (by simp [build, Expr.mkConditional, Expr.operandSpans, Draft.operands, span])
  | elvis l r => exact .inl rfl

/-- **Operators cover their operands.**  In every tree whose leaves stand in the order of the source, as far as it is
known where they stand, an operator covers all its operands that are known, unless the middle operand of a conditional
sticks out; nothing else can go wrong.  In any case its span is well formed and no smaller one covers what it was merged
from, and the operands it holds, casts included, are known to stand where those stand that it was built from. -/
theorem operators_cover_operands {d : Draft} (h : d.InOrder) : ∀ node ∈ d.operators,
    ((∀ o ∈ node.operands, Span.CoversKnown node.span o.span) ↔ ¬ node.MiddleSticksOut) ∧
    (∀ s ∈ node.span, s.WellFormed ∧ ∀ t : Span, (∀ o ∈ node.operands, ∀ p ∈ o.span, t.Covers p) → t.Covers s) ∧
    (node.build.operandSpans = node.operands.map span ∨ ∃ lit, node.build = .literal lit) := by
  intro node hnode
  have hne := operands_ne_nil_of_mem_operators hnode
  have horder := inOrder_of_sublist h (leafSpans_sublist_of_mem_operators hnode)
  exact ⟨horder.coversKnown_iff,
    fun s hs => ⟨horder.wellFormed_span s hs, fun t ht => covers_span hne ht s hs⟩, operandSpans_build hne⟩

def onFirstLine (start stop : Nat) : Span := ⟨⟨1, start + 1, start⟩, ⟨1, stop + 1, stop⟩⟩

/-- The tree of `true ? 1 : last`. -/
def oneOr (last : Expr) : Draft :=
  conditional (leaf (.literal ⟨.boolean true, some (onFirstLine 0 4)⟩))
    (leaf (.literal ⟨.integer 1, some (onFirstLine 7 8)⟩)) (leaf last)

/-- An empty struct, which has no span, joined to `true ? 1 : 2`. -/
theorem oneOrTwo_covered :
    (binary (.concat true) (leaf .newStruct) (oneOr (.literal ⟨.integer 2, some (onFirstLine 11 12)⟩))).InOrder ∧
    ∀ node ∈ (binary (.concat true) (leaf .newStruct)
        (oneOr (.literal ⟨.integer 2, some (onFirstLine 11 12)⟩))).operators,
      ∀ o ∈ node.operands, Span.CoversKnown node.span o.span := by
  have horder : (binary (.concat true) (leaf .newStruct)
      (oneOr (.literal ⟨.integer 2, some (onFirstLine 11 12)⟩))).InOrder :=
    inOrder_of_separate (by decide) (by decide)
  refine ⟨horder, fun node hnode => (operators_cover_operands horder node hnode).1.2 ?_⟩
  simp only [operators, oneOr, List.nil_append, List.append_nil, List.mem_cons, List.not_mem_nil, or_false] at hnode
  rcases hnode with rfl | rfl
  · exact id
  · exact id

/-- In `true ? 1 : {}` the last operand has no span, so the conditional ends where its condition does, and what stands in
the middle is not covered. -/
theorem oneOrEmpty_not_covered :
    (oneOr .newStruct).InOrder ∧ (oneOr .newStruct).span = some (onFirstLine 0 4) ∧
    (oneOr .newStruct).leafSpans = [onFirstLine 0 4, onFirstLine 7 8] ∧
    ¬ ∀ node ∈ (oneOr .newStruct).operators, ∀ o ∈ node.operands, Span.CoversKnown node.span o.span := by
  have horder : (oneOr .newStruct).InOrder := inOrder_of_separate (by decide) (by decide)
  refine ⟨horder, rfl, rfl, fun hcovers => ?_⟩
  have hmiddle := horder.coversKnown_iff.1 (hcovers _ (List.mem_cons_self ..))
  exact hmiddle (by decide : 4 < 8)

end Draft

end LooseExpr
