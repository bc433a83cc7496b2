import LooseExpr.Proofs.Code.Agreement
import LooseExpr.Proofs.Code.Interning
import LooseExpr.Proofs.Text.Case
/-!
# Members that are named by literals

Evaluation reads the key of a member off the value of its name, and code loads a key that was chosen when it was
emitted.  Keys disregard case, so it should not matter that the settings may have names put in upper case first.  It
matters for the texts that do not keep their case: for these, code and evaluation address two different members
(`CodeUnit.sharpS_addresses_another_member`), and for all others the same one (`CodeUnit.literalMembers_keys`).
-/
namespace LooseExpr

/-- **Upper case leads to the same entry exactly for names that keep their case.** -/
theorem Key.same_upper_iff (text : String) :
    Key.same ⟨Text.upper text⟩ ⟨text⟩ = true ↔ Text.keepsCase text = true :=
  Key.same_iff.trans (Text.lower_upper_eq_iff text)

theorem Key.same_iff_of_recased {key : Key} {upperCase : Bool} {text : String}
    (h : key.same ⟨if upperCase then Text.upper text else text⟩ = true) :
    key.same ⟨text⟩ = true ↔ upperCase = false ∨ Text.keepsCase text = true := by
  cases upperCase with
  | false => exact ⟨fun _ => .inl rfl, fun _ => h⟩
  | true =>
    have hfolded : key.folded = Key.folded ⟨Text.upper text⟩ := Key.same_iff.1 h
    rw [Key.same_iff, hfolded, ← Key.same_iff, Key.same_upper_iff]
    simp

/-! ## Evaluation -/

theorem Value.toKey_of_toText {v : Value} {text : String} (h : v.toText = .ok text) (hnull : v ≠ .null) :
    v.toKey = .ok ⟨text⟩ := by
  unfold toKey
  split
  · exact absurd rfl hnull
  · cases h
  · cases h
  · rw [h]
    rfl

theorem Constant.ne_null_of_text? {c : Constant} {text : String} (h : c.text? = some text) {settings : Settings}
    {v : Value} (hlower : c.lower settings = .literal v) : v ≠ .null := by
  cases c with
  | null => cases h
  | nullWord => cases h
  | _ =>
    cases hlower
    exact nofun

namespace Expr

/-- The text of a name that is a literal, under any number of casts to text. -/
def memberText? (name : Expr) : Option String := name.stripTextCasts.literalText?

theorem resolve_of_literalText? (settings : Settings) {e : Expr} {text : String} (h : e.literalText? = some text) :
    ∃ r, e.lower settings = .ok r ∧ ∃ v, v.toText = .ok text ∧ v ≠ .null ∧
      ∀ s, (r.resolve false).run s = (.ok v, s) := by
  cases e with
  | literal lit =>
    have htext : lit.value.text? = some text := h
    obtain ⟨v, hlower, hv⟩ := Constant.text?_lower htext settings
    refine ⟨.literal v, ?_, v, hv, Constant.ne_null_of_text? htext hlower, fun s => ?_⟩
    · rw [lower, hlower]
      rfl
    · rw [Ref.resolve, Eval.run_pure]
  | _ => cases h

-- The induction is along the casts: each of them finds a value that has the text already.
theorem resolve_of_memberText? (settings : Settings) {name : Expr} {text : String} (h : name.memberText? = some text) :
    ∃ r, name.lower settings = .ok r ∧ ∃ v, v.toText = .ok text ∧ v ≠ .null ∧
      ∀ s, (r.resolve false).run s = (.ok v, s) := by
  unfold memberText? at h
  fun_induction stripTextCasts name with
  | case1 e target span htarget ih =>
    obtain ⟨r, hlower, v, hv, -, hrun⟩ := ih h
    have hcast : target.apply v = .ok (.text text) := by
      rw [CastTarget.apply_of_staticType_string htarget]
      unfold CastTarget.apply
      rw [hv]
      rfl
    refine ⟨.cast r target, ?_, .text text, rfl, by simp, fun s => ?_⟩
    · rw [lower, hlower]
      rfl
    · rw [Ref.resolve, Eval.run_bind_of_ok (hrun s), hcast, Eval.run_lift]
  | case2 e target span htarget => cases h
  | case3 e _ => exact resolve_of_literalText? settings h

theorem keys_of_memberTexts (settings : Settings) {members : List Expr} {texts : List String}
    (h : members.map memberText? = texts.map some) :
    ∃ refs, lowerAll settings members = .ok refs ∧ ∀ s, (Ref.keys refs).run s = (.ok (texts.map Key.mk), s) := by
  induction members generalizing texts with
  | nil =>
    obtain rfl : texts = [] := by simpa using h.symm
    exact ⟨[], rfl, fun s => by rw [Ref.keys, Eval.run_pure]; rfl⟩
  | cons m ms ih =>
    cases texts with
    | nil => cases h
    | cons text texts =>
      obtain ⟨hm, hms⟩ := List.cons.inj h
      obtain ⟨r, hr, v, hv, hnull, hrun⟩ := resolve_of_memberText? settings hm
      obtain ⟨refs, hrefs, hkeys⟩ := ih hms
      refine ⟨r :: refs, ?_, fun s => ?_⟩
      · rw [lowerAll, hr, hrefs]
        rfl
      · rw [Ref.keys, Eval.run_bind_of_ok (hrun s), Value.toKey_of_toText hv hnull, Eval.run_lift_ok_bind,
          Eval.run_bind_of_ok (hkeys s), Eval.run_pure]
        rfl

/-! ## Code -/

theorem ofMember_of_memberText? {name : Expr} {text : String} (h : name.memberText? = some text) (upperCase : Bool)
    (computed : Uses) : Uses.ofMember upperCase name computed = .one (if upperCase then Text.upper text else text) := by
  unfold memberText? at h
  unfold Uses.ofMember
  cases hname : name.stripTextCasts with
  | literal lit =>
    rw [hname] at h
    have htext : lit.value.text? = some text := h
    simp only [htext]
  | _ =>
    rw [hname] at h
    cases h

theorem usesMembers_of_memberTexts (settings : Settings) {members : List Expr} {texts : List String}
    (h : members.map memberText? = texts.map some) : usesMembers settings members =
      ⟨texts.map fun text => if settings.dotNotationUpperCase then Text.upper text else text, true⟩ := by
  induction members generalizing texts with
  | nil =>
    obtain rfl : texts = [] := by simpa using h.symm
    rfl
  | cons m ms ih =>
    cases texts with
    | nil => cases h
    | cons text texts =>
      obtain ⟨hm, hms⟩ := List.cons.inj h
      rw [usesMembers, ih hms, ofMember_of_memberText? hm]
      rfl

end Expr

namespace CodeUnit

/-- The key that an instruction pushes. -/
def loadedKey? (u : CodeUnit) : Instr → Option Key
  | .loadKeyConstant field => Key.constant? field
  | .loadKey unit index => if unit = u.name then u.keys.keys[index]? else none
  | _ => none

theorem loadedKey?_of_loads {u : CodeUnit} {i : Instr} {name : String} (h : i.Loads u.name u.keys name) :
    ∃ key, u.loadedKey? i = some key ∧ key.same ⟨name⟩ = true := by
  unfold Instr.Loads at h
  split at h
  · exact ⟨_, h, Key.same_refl _⟩
  · obtain ⟨hunit, key, hkey, hsame⟩ := h
    exact ⟨key, (if_pos hunit).trans hkey, hsame⟩
  · exact h.elim

/-- **Code and evaluation address the same members, but for the names in upper case that do not keep their case.**  The
members are named by literals: the code can be made, evaluation comes to the keys of their texts and leaves the session
as it is, and the keys that the code loads, one for each member, are the same as these exactly if names are left as they
are or the name keeps its case.  Plain letters do. -/
theorem literalMembers_keys (u : CodeUnit) (scope : Scope) (members : List Expr) (texts : List String)
    (span : Option Span) (hnames : members.map Expr.memberText? = texts.map some) :
    let r := u.write (.var scope members span)
    r.1 = .ok () ∧
    (∃ refs, (Expr.var scope members span).lower u.settings = .ok (.var scope refs) ∧
      ∀ s, (Ref.keys refs).run s = (.ok (texts.map Key.mk), s)) ∧
    List.Forall₂ (fun load text => ∃ key, r.2.loadedKey? load = some key ∧
      (key.same ⟨text⟩ = true ↔ u.settings.dotNotationUpperCase = false ∨ Text.keepsCase text = true))
      ((r.2.codeFrom u.code.size).filter Instr.loadsKey) texts ∧
    ∀ text ∈ texts, (∀ c ∈ text.toList, c.toNat < 128) → Text.keepsCase text = true := by
  intro r
  have huses : (Expr.var scope members span).uses u.settings =
      ⟨texts.map fun text => if u.settings.dotNotationUpperCase then Text.upper text else text, true⟩ := by
    rw [Expr.uses, Expr.usesMembers_of_memberTexts u.settings hnames]
  let call : Call := .write (.var scope members span)
  have hinterns : (u.emission call).Interns u.name u.keys (call.uses u.settings) := u.emission_interns call
  have hcall : call.uses u.settings = _ := huses
  have hr : r = _ := u.perform_eq call
  have hname : r.2.name = u.name := by rw [hr]
  have hkeys : r.2.keys = (u.emission call).keys := by rw [hr]
  have hcode : r.2.codeFrom u.code.size = (u.emission call).code := by
    rw [hr]
    simp [codeFrom]
  rw [hcall] at hinterns
  obtain ⟨refs, hrefs, hresolved⟩ := Expr.keys_of_memberTexts u.settings hnames
  refine ⟨?_, ⟨refs, ?_, hresolved⟩, ?_, fun text _ hascii => Text.keepsCase_of_ascii hascii⟩
  · rw [hr]
    exact Emission.outcome_eq_ok_iff.2 (Option.isNone_iff_eq_none.1 hinterns.failure)
  · rw [Expr.lower, hrefs]
    rfl
  · rw [hcode]
    refine (List.forall₂_map_right_iff.1 hinterns.loads).imp fun load text hload => ?_
    rw [← hname, ← hkeys] at hload
    obtain ⟨key, hkey, hsame⟩ := loadedKey?_of_loads hload
    exact ⟨key, hkey, Key.same_iff_of_recased hsame⟩

/-- Names in upper case: `λόγος` under a cast keeps its case, and so does a number. -/
theorem literalMembers_keys_logos :
    let u := new {} "unit"
    let members : List Expr := [.cast (.literal ⟨.string "λόγος", none⟩) .string none, .literal ⟨.integer 7, none⟩]
    let r := u.write (.var .url members none)
    members.map Expr.memberText? = [some "λόγος", some "7"] ∧
    u.settings.dotNotationUpperCase = true ∧ r.1 = .ok () ∧
    List.Forall₂ (fun load text => ∃ key, r.2.loadedKey? load = some key ∧ key.same ⟨text⟩ = true)
      ((r.2.codeFrom u.code.size).filter Instr.loadsKey) ["λόγος", "7"] := by
  intro u members r
  have hnames : members.map Expr.memberText? = ["λόγος", "7"].map some := by decide +kernel
  have hlogos : Text.keepsCase "λόγος" = true := by decide +kernel
  have hseven : Text.keepsCase "7" = true := by decide +kernel
  obtain ⟨hok, -, hloads, -⟩ :=
    literalMembers_keys u .url members ["λόγος", "7"] none hnames
  refine ⟨hnames, rfl, hok, ?_⟩
  obtain ⟨load, loads, ⟨key, hkey, hsame⟩, hrest, hcode⟩ := List.forall₂_cons_right_iff.1 hloads
  obtain ⟨load', loads', ⟨key', hkey', hsame'⟩, hnil, rfl⟩ := List.forall₂_cons_right_iff.1 hrest
  obtain rfl := List.forall₂_nil_right_iff.1 hnil
  rw [hcode]
  exact .cons ⟨key, hkey, hsame.2 (.inr hlogos)⟩ (.cons ⟨key', hkey', hsame'.2 (.inr hseven)⟩ .nil)

/-- **A sharp s in a name leads to another member.**  Evaluation comes to the key `straße`; the code loads the key
`STRASSE`, which names the entry of `strasse`. -/
theorem sharpS_addresses_another_member :
    let e : Expr := .var .vars [.literal ⟨.string "straße", none⟩] none
    let r := (new {} "unit").write e
    r.2.code = #[.loadScope .vars, .loadKey "unit" 0, .getMember] ∧
    r.2.loadedKey? (.loadKey "unit" 0) = some ⟨"STRASSE"⟩ ∧
    e.lower {} = .ok (.var .vars [.literal (.text "straße")]) ∧
    (∀ s, (Ref.keys [.literal (.text "straße")]).run s = (.ok [⟨"straße"⟩], s)) ∧
    Key.same ⟨"STRASSE"⟩ ⟨"straße"⟩ = false ∧ Key.same ⟨"STRASSE"⟩ ⟨"strasse"⟩ = true :=
  ⟨by decide +kernel, by decide +kernel, rfl, fun _ => rfl, by decide +kernel, by decide +kernel⟩

end CodeUnit

end LooseExpr
