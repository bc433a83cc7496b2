import LooseExpr.Proofs.Decimal.Reading
import LooseExpr.Text.Json
/-!
# Written texts that end by themselves

A string in a document ends at the first quote that no backslash stands before, and a truth value after its last letter.
So what was written can be told from the text, whatever comes behind it (`Json.Delimited`).  A number has no end of its
own; the comma behind it is its end.
-/
namespace LooseExpr.Json

/-- **No text is the beginning of another one**, so each of them can be told from what comes behind. -/
def Delimited {α : Type} (write : α → List Char) : Prop :=
  ∀ a b rest rest', write a ++ rest = write b ++ rest' → a = b ∧ rest = rest'

/-! ## Strings -/

/-- The value of a digit below sixteen, in small letters. -/
def hexValue (c : Char) : Nat := if c.toNat < 58 then c.toNat - 48 else c.toNat - 87

/-- The character that a string begins with, and what is behind it; there is none at the closing quote. -/
def readChar? : List Char → Option (Char × List Char)
  | '\\' :: 'u' :: _ :: _ :: a :: b :: rest => some (Char.ofNat (16 * hexValue a + hexValue b), rest)
  | '\\' :: 'b' :: rest => some ('\x08', rest)
  | '\\' :: 'f' :: rest => some ('\x0c', rest)
  | '\\' :: 'n' :: rest => some ('\n', rest)
  | '\\' :: 'r' :: rest => some ('\r', rest)
  | '\\' :: 't' :: rest => some ('\t', rest)
  | '\\' :: c :: rest => some (c, rest)
  | '"' :: _ => none
  | c :: rest => some (c, rest)
  | [] => none

theorem hexValue_hexDigit {n : Nat} (h : n < 16) : hexValue (hexDigit n) = n := by
  have hall : ∀ n < 16, hexValue (hexDigit n) = n := by decide
  exact hall n h

/-- **An escaped character is read back.** -/
theorem readChar?_escapeChar (c : Char) (rest : List Char) : readChar? (escapeChar c ++ rest) = some (c, rest) := by
  unfold escapeChar
  by_cases hquote : c = '"'
  · subst hquote; rfl
  by_cases hbackslash : c = '\\'
  · subst hbackslash; rfl
  by_cases hb : c = '\x08'
  · subst hb; rfl
  by_cases hf : c = '\x0c'
  · subst hf; rfl
  by_cases hn : c = '\n'
  · subst hn; rfl
  by_cases hr : c = '\r'
  · subst hr; rfl
  by_cases ht : c = '\t'
  · subst ht; rfl
  simp only [hquote, hbackslash, hb, hf, hn, hr, ht, if_false]
  by_cases hcontrol : c.toNat < 32
  · have hvalue : 16 * hexValue (hexDigit (c.toNat / 16)) + hexValue (hexDigit (c.toNat % 16)) = c.toNat := by
      rw [hexValue_hexDigit (by omega), hexValue_hexDigit (by omega)]
      omega
    simp [hcontrol, readChar?, hvalue]
  · simp [hcontrol, readChar?, hbackslash]

theorem escape_append_inj {s t rest rest' : List Char}
    (h : s.flatMap escapeChar ++ '"' :: rest = t.flatMap escapeChar ++ '"' :: rest') : s = t ∧ rest = rest' := by
  have hread := congrArg readChar? h
  induction s generalizing t with
  | nil =>
    cases t with
    | nil => exact ⟨rfl, (List.cons.inj h).2⟩
    | cons d t =>
      rw [List.flatMap_cons, List.append_assoc, readChar?_escapeChar] at hread
      cases hread
  | cons c s ih =>
    rw [List.flatMap_cons, List.append_assoc, readChar?_escapeChar] at hread
    cases t with
    | nil => cases hread
    | cons d t =>
      rw [List.flatMap_cons, List.append_assoc, readChar?_escapeChar] at hread
      obtain ⟨rfl, hrest⟩ := Prod.mk.inj (Option.some.inj hread)
      obtain ⟨rfl, rfl⟩ := ih hrest (congrArg readChar? hrest)
      exact ⟨rfl, rfl⟩

theorem quote_delimited : Delimited fun s : String => (quote s).toList := by
  intro s t rest rest' h
  simp only [quote, String.toList_ofList, List.cons_append, List.append_assoc, List.nil_append, List.cons.injEq,
    true_and] at h
  obtain ⟨hchars, hrest⟩ := escape_append_inj h
  exact ⟨String.toList_inj.1 hchars, hrest⟩

/-! ## Truth values and numbers -/

theorem boolText_delimited : Delimited fun b : Bool => (boolText b).toList := by
  intro a b rest rest' h
  cases a <;> cases b <;> simp_all [boolText]

theorem toString_inj {n m : Int} (h : toString n = toString m) : n = m := by
  rw [← Decimal.toText_ofInt, ← Decimal.toText_ofInt] at h
  have hread := Decimal.ofText?_toText (Decimal.ofInt_normal n)
  rw [h, Decimal.ofText?_toText (Decimal.ofInt_normal m)] at hread
  exact (congrArg Decimal.mantissa (Option.some.inj hread)).symm

theorem comma_not_mem_toString (n : Nat) : ',' ∉ (toString (n : Int)).toList := by
  intro h
  have hdigits : (toString (n : Int)).toList = Nat.toDigits 10 n := by
    rw [Int.toString_eq_repr, Int.repr_eq_if]
    simp [Nat.repr_eq_ofList_toDigits]
  rw [hdigits] at h
  exact absurd (Nat.isDigit_of_mem_toDigits (by decide) (by decide) h) (by decide)

theorem count_delimited : Delimited fun n : Nat => (toString (n : Int)).toList ++ [','] := by
  intro n m rest rest' h
  simp only [List.append_assoc, List.singleton_append] at h
  have hboth : (toString (n : Int)).toList = (toString (m : Int)).toList ∧ rest = rest' := by
    -- were one text longer than the other one, it would hold the comma behind that
    rcases List.append_eq_append_iff.1 h with ⟨more, hm, hrest⟩ | ⟨more, hn, hrest⟩
    · cases more with
      | nil => simp_all
      | cons c more =>
        obtain ⟨rfl, -⟩ := List.cons.inj hrest
        exact absurd (by rw [hm]; simp) (comma_not_mem_toString m)
    · cases more with
      | nil => simp_all
      | cons c more =>
        obtain ⟨rfl, -⟩ := List.cons.inj hrest
        exact absurd (by rw [hn]; simp) (comma_not_mem_toString n)
  exact ⟨Int.ofNat.inj (toString_inj (String.toList_inj.1 hboth.1)), hboth.2⟩

end LooseExpr.Json
