import LooseExpr.Proofs.Text.Json
import LooseExpr.Settings.Basic
import Mathlib.Data.List.Nodup
/-!
# One factory for all settings that are equal

The document of settings tells them apart, whatever characters are in the name (`Settings.compact_injective`).  So as
long as the digest has no collision among the documents that are asked for, a registry hands out the same factory for
equal settings, another one for all others, and each with the settings that were asked for
(`Settings.Registry.one_factory_per_settings`).
-/
namespace LooseExpr.Settings

/-! ## The document -/

/-- The document of settings, written out. -/
theorem toList_compact (s : Settings) : s.toJson.compact.toList =
    "\x7b\"name\":".toList ++ ((Json.quote s.name).toList ++ (",\"null_support\":".toList ++
      ((Json.boolText s.nullSupport).toList ++ (",\"division_precision\":".toList ++
        ((toString (s.divisionPrecision.toNat : Int)).toList ++ [','] ++ ("\"dot_notation_upper_case\":".toList ++
          ((Json.boolText s.dotNotationUpperCase).toList ++ ['\x7d']))))))) := by
  have hparts : s.toJson.compact = "\x7b" ++ (Json.quote "name" ++ ":" ++ Json.quote s.name ++ "," ++
      (Json.quote "null_support" ++ ":" ++ Json.boolText s.nullSupport) ++ "," ++
      (Json.quote "division_precision" ++ ":" ++ toString (s.divisionPrecision.toNat : Int)) ++ "," ++
      (Json.quote "dot_notation_upper_case" ++ ":" ++ Json.boolText s.dotNotationUpperCase)) ++ "\x7d" := rfl
  have hname : Json.quote "name" = "\"name\"" := by rfl
  have hnull : Json.quote "null_support" = "\"null_support\"" := by rfl
  have hprecision : Json.quote "division_precision" = "\"division_precision\"" := by rfl
  have hupper : Json.quote "dot_notation_upper_case" = "\"dot_notation_upper_case\"" := by rfl
  rw [hparts, hname, hnull, hprecision, hupper]
  simp

/-- **No two settings have the same document.** -/
theorem compact_injective : Function.Injective fun s : Settings => s.toJson.compact := by
  intro s t h
  have hchars := congrArg String.toList h
  simp only [toList_compact] at hchars
  obtain ⟨hname, hchars⟩ := Json.quote_delimited _ _ _ _ (List.append_cancel_left hchars)
  obtain ⟨hnull, hchars⟩ := Json.boolText_delimited _ _ _ _ (List.append_cancel_left hchars)
  obtain ⟨hprecision, hchars⟩ := Json.count_delimited _ _ _ _ (List.append_cancel_left hchars)
  obtain ⟨hupper, -⟩ := Json.boolText_delimited _ _ _ _ (List.append_cancel_left hchars)
  obtain ⟨name, nullSupport, divisionPrecision, dotNotationUpperCase⟩ := s
  obtain ⟨name', nullSupport', divisionPrecision', dotNotationUpperCase'⟩ := t
  simp only [UInt32.toNat_inj] at hname hnull hprecision hupper
  simp only [hname, hnull, hprecision, hupper]

/-! ## The registry -/

namespace Registry

/-- Calls one after the other: the factories that they get, and the registry after them. -/
def shareAll (registry : Registry) : List Settings → List Factory × Registry
  | [] => ([], registry)
  | s :: calls =>
    let first := registry.share s
    let rest := shareAll first.2 calls
    (first.1 :: rest.1, rest.2)

/-- **The registry is in order**: a factory has its place for a number, stands under the fingerprint of its settings and
alone there, and its settings were asked for. -/
structure InOrder (asked : List Settings) (registry : Registry) : Prop where
  serial : ∀ (i : Nat) (entry : String × Factory), registry[i]? = some entry → entry.2.serial = i
  key : ∀ entry ∈ registry, entry.1 = entry.2.settings.fingerprint ∧ entry.2.settings ∈ asked
  distinct : (registry.map Prod.fst).Nodup

variable {asked : List Settings} {registry : Registry}

theorem inOrder_nil (asked : List Settings) : InOrder asked [] := ⟨by simp, by simp, by simp⟩

/-- **A call finds the factory or adds it at the end**, and the registry stays in order. -/
theorem InOrder.share (h : InOrder asked registry) {s : Settings} (hs : s ∈ asked) :
    InOrder asked (registry.share s).2 ∧ registry <+: (registry.share s).2 ∧
      (s.fingerprint, (registry.share s).1) ∈ (registry.share s).2 := by
  unfold Registry.share
  cases hfound : registry.lookup s.fingerprint with
  | some kept =>
    obtain ⟨before, after, hsplit, -⟩ := List.lookup_eq_some_iff.1 hfound
    exact ⟨h, List.prefix_rfl, by simp [hsplit]⟩
  | none =>
    have hnew := List.lookup_eq_none_iff.1 hfound
    refine ⟨⟨?_, ?_, ?_⟩, List.prefix_append _ _, by simp⟩
    · intro i entry hentry
      rw [List.getElem?_append] at hentry
      split at hentry
      next => exact h.serial i entry hentry
      next hi =>
        obtain ⟨hplace, heq⟩ := List.getElem?_eq_some_iff.1 hentry
        have hlast : i = registry.length := by
          simp only [List.length_singleton] at hplace
          omega
        rw [List.getElem_singleton] at heq
        rw [← heq, hlast]
    · intro entry hentry
      rcases List.mem_append.1 hentry with hentry | hentry
      · exact h.key entry hentry
      · cases List.mem_singleton.1 hentry
        exact ⟨rfl, hs⟩
    · rw [List.map_append, List.nodup_append]
      refine ⟨h.distinct, by simp, ?_⟩
      intro key hkey key' hkey'
      obtain ⟨entry, hentry, rfl⟩ := List.mem_map.1 hkey
      cases List.mem_singleton.1 hkey'
      have hother := hnew entry hentry
      exact fun heq => by simp [heq] at hother

theorem InOrder.eq_of_serial (h : InOrder asked registry) {entry other : String × Factory} (hentry : entry ∈ registry)
    (hother : other ∈ registry) (heq : entry.2.serial = other.2.serial) : entry = other := by
  obtain ⟨i, hi⟩ := List.mem_iff_getElem?.1 hentry
  obtain ⟨j, hj⟩ := List.mem_iff_getElem?.1 hother
  have hplace : i = j := by rw [← h.serial i entry hi, ← h.serial j other hj, heq]
  rw [hplace, hj] at hi
  exact (Option.some.inj hi).symm

theorem InOrder.eq_of_key (h : InOrder asked registry) {entry other : String × Factory} (hentry : entry ∈ registry)
    (hother : other ∈ registry) (heq : entry.1 = other.1) : entry = other :=
  List.inj_on_of_nodup_map h.distinct hentry hother heq

/-- **What a run of calls gets**: every call gets a factory that stands under the fingerprint of what it asks for when the
run is over. -/
theorem InOrder.shareAll (h : InOrder asked registry) {calls : List Settings} (hcalls : ∀ s ∈ calls, s ∈ asked) :
    InOrder asked (registry.shareAll calls).2 ∧ registry <+: (registry.shareAll calls).2 ∧
      List.Forall₂ (fun s f => (s.fingerprint, f) ∈ (registry.shareAll calls).2) calls
        (registry.shareAll calls).1 := by
  induction calls generalizing registry with
  | nil => exact ⟨h, List.prefix_rfl, .nil⟩
  | cons s calls ih =>
    obtain ⟨hfirst, hgrows, hmem⟩ := h.share (hcalls s List.mem_cons_self)
    obtain ⟨hlast, hgrows', hrest⟩ := ih hfirst fun t ht => hcalls t (List.mem_cons_of_mem s ht)
    exact ⟨hlast, hgrows.trans hgrows', .cons (hgrows'.subset hmem) hrest⟩

/-- **A registry has one factory for all settings that are equal.**  However often and in whatever order factories are
asked for, and unless the digest has a collision among the documents of what is asked for, every call gets a factory with
the settings it asks for, and two calls get the same one if and only if they ask for the same settings.  The documents
themselves are different for any two settings. -/
theorem one_factory_per_settings (calls : List Settings)
    (hdigest : ∀ a ∈ calls, ∀ b ∈ calls, Digest.sha256 a.toJson.compact = Digest.sha256 b.toJson.compact →
      a.toJson.compact = b.toJson.compact) :
    (shareAll [] calls).1.map Factory.settings = calls ∧
    (∀ (i j : Nat) (a b : Settings) (f g : Factory), calls[i]? = some a → calls[j]? = some b →
      (shareAll [] calls).1[i]? = some f → (shareAll [] calls).1[j]? = some g →
      (f.serial = g.serial ↔ a = b)) ∧
    Function.Injective fun s : Settings => s.toJson.compact := by
  obtain ⟨horder, -, hgot⟩ := (inOrder_nil calls).shareAll fun _ hs => hs
  have hsettings : List.Forall₂ (fun s f => s = f.settings) calls (shareAll [] calls).1 := by
    refine List.forall₂_iff_get.2 ⟨hgot.length_eq, fun i hi hi' => ?_⟩
    obtain ⟨hprint, hasked⟩ := horder.key _ ((List.forall₂_iff_get.1 hgot).2 i hi hi')
    exact compact_injective (hdigest _ (List.get_mem calls _) _ hasked hprint)
  refine ⟨(List.forall₂_eq_eq_eq ▸ List.forall₂_map_right_iff.2 hsettings).symm, ?_, compact_injective⟩
  intro i j a b f g ha hb hf hg
  have hcall : (a, f) ∈ calls.zip (shareAll [] calls).1 :=
    List.mem_of_getElem? (List.getElem?_zip_eq_some.2 ⟨ha, hf⟩)
  have hcall' : (b, g) ∈ calls.zip (shareAll [] calls).1 :=
    List.mem_of_getElem? (List.getElem?_zip_eq_some.2 ⟨hb, hg⟩)
  have hkept := List.forall₂_zip hgot hcall
  have hkept' := List.forall₂_zip hgot hcall'
  constructor
  · intro hserial
    obtain ⟨-, rfl⟩ := Prod.mk.inj (horder.eq_of_serial hkept hkept' hserial)
    rw [List.forall₂_zip hsettings hcall, List.forall₂_zip hsettings hcall']
  · rintro rfl
    obtain ⟨-, rfl⟩ := Prod.mk.inj (horder.eq_of_key hkept hkept' rfl)
    rfl

/-- A name that spells the text of another field is only a name, and the third call gets the factory of the first. -/
theorem one_factory_per_settings_asked_twice :
    let plain : Settings := {}
    let imitating : Settings := { name := "default\",\"null_support\":true" }
    let calls := [plain, imitating, plain]
    (∀ a ∈ calls, ∀ b ∈ calls, Digest.sha256 a.toJson.compact = Digest.sha256 b.toJson.compact →
      a.toJson.compact = b.toJson.compact) ∧
    (shareAll [] calls).1.map Factory.settings = calls ∧
    ∀ f g h : Factory, (shareAll [] calls).1 = [f, g, h] → f.serial = h.serial ∧ f.serial ≠ g.serial := by
  intro plain imitating calls
  have hdifferent : Digest.sha256 plain.toJson.compact ≠ Digest.sha256 imitating.toJson.compact := by decide +kernel
  have hcalls : ∀ a ∈ calls, a = plain ∨ a = imitating := by simp [calls]
  have hdigest : ∀ a ∈ calls, ∀ b ∈ calls, Digest.sha256 a.toJson.compact = Digest.sha256 b.toJson.compact →
      a.toJson.compact = b.toJson.compact := by
    intro a ha b hb heq
    rcases hcalls a ha with rfl | rfl <;> rcases hcalls b hb with rfl | rfl
    · rfl
    · exact absurd heq hdifferent
    · exact absurd heq.symm hdifferent
    · rfl
  obtain ⟨hsettings, hsame, -⟩ := one_factory_per_settings calls hdigest
  refine ⟨hdigest, hsettings, fun f g h hgot => ⟨?_, fun hserial => ?_⟩⟩
  · exact (hsame 0 2 plain plain f h rfl rfl (by rw [hgot]; rfl) (by rw [hgot]; rfl)).2 rfl
  · have heq := (hsame 0 1 plain imitating f g rfl rfl (by rw [hgot]; rfl) (by rw [hgot]; rfl)).1 hserial
    exact absurd heq (by decide)

end Registry

end LooseExpr.Settings
