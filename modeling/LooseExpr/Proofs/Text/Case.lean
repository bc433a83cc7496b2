import LooseExpr.Text.Case
/-!
# Upper case, and back to lower case

A text put in upper case need not have the lower case that it had: `ß` becomes `SS`, and a small sigma comes back in the
form that its place asks for.  `Text.keepsCase` looks at a text character by character, and says exactly when its lower
case survives (`Text.lower_upper_eq_iff`).

No character's lower case is longer than that of its upper case.  So the two texts can only be equal if they are equal at
every character.
-/
namespace LooseExpr.Text

/-- The lower case of a character between others; what stands before it is given from its end. -/
def lowerAt (before after : List Char) (c : Char) : List Char :=
  if c = capitalSigma then [lowerSigma before after] else lowerChar c

def upperChars (cs : List Char) : List Char := cs.flatMap upperChar

/-- The upper case of what stands before a character, from its end. -/
def upperBefore (before : List Char) : List Char := before.flatMap fun c => (upperChar c).reverse

/-- The lower case of the upper case of a character, if the whole text was put in upper case. -/
def recasedAt (before after : List Char) (c : Char) : List Char :=
  if upperChar c = [capitalSigma] then [lowerSigma (upperBefore before) (upperChars after)]
  else (upperChar c).flatMap lowerChar

def keepsFrom (before : List Char) : List Char → Bool
  | [] => true
  | c :: after => recasedAt before after c == lowerAt before after c && keepsFrom (c :: before) after

/-- **Every character has the lower case that its upper case has.** -/
def keepsCase (s : String) : Bool := keepsFrom [] s.toList

/-! ## The tables -/

theorem mapChar_eq_singleton_or (expansions : List (Nat × List Nat)) (runs : List CaseRun) (c : Char) :
    (∃ d, mapChar expansions runs c = [d]) ∨
      ∃ codes, (c.toNat, codes) ∈ expansions ∧ mapChar expansions runs c = codes.map Char.ofNat := by
  unfold mapChar
  cases hlookup : expansions.lookup c.toNat with
  | some codes =>
    obtain ⟨front, back, hsplit, -⟩ := List.lookup_eq_some_iff.1 hlookup
    exact .inr ⟨codes, by simp [hsplit], rfl⟩
  | none =>
    cases runs.find? (·.has c.toNat) with
    | some run => exact .inl ⟨_, rfl⟩
    | none => exact .inl ⟨_, rfl⟩

theorem upperChar_eq_singleton_or (c : Char) : (∃ d, upperChar c = [d]) ∨
    ∃ codes, (c.toNat, codes) ∈ upperExpansions ∧ upperChar c = codes.map Char.ofNat := by
  unfold upperChar
  by_cases hascii : c.toNat < 128
  · rw [if_pos hascii]
    exact .inl ⟨_, rfl⟩
  · rw [if_neg hascii]
    exact mapChar_eq_singleton_or _ _ c

theorem lowerChar_eq_singleton_or (c : Char) : (∃ d, lowerChar c = [d]) ∨ c = Char.ofNat 304 := by
  unfold lowerChar
  by_cases hascii : c.toNat < 128
  · rw [if_pos hascii]
    exact .inl ⟨_, rfl⟩
  · rw [if_neg hascii]
    rcases mapChar_eq_singleton_or lowerExpansions lowerRuns c with h | ⟨codes, hcodes, -⟩
    · exact .inl h
    · right
      have hcode : c.toNat = 304 := by
        simp [lowerExpansions] at hcodes
        exact hcodes.1
      rw [← hcode, Char.ofNat_toNat]

theorem upperExpansions_long : ∀ entry ∈ upperExpansions,
    entry.2 ≠ [] ∧ capitalSigma ∉ entry.2.map Char.ofNat := by decide +kernel

theorem upperChar_ne_nil (c : Char) : upperChar c ≠ [] := by
  rcases upperChar_eq_singleton_or c with ⟨d, hd⟩ | ⟨codes, hcodes, hc⟩
  · simp [hd]
  · simpa [hc] using (upperExpansions_long _ hcodes).1

theorem upperChar_eq_of_mem {c : Char} (h : capitalSigma ∈ upperChar c) : upperChar c = [capitalSigma] := by
  rcases upperChar_eq_singleton_or c with ⟨d, hd⟩ | ⟨codes, hcodes, hc⟩
  · rw [hd] at h ⊢
    rw [List.mem_singleton.1 h]
  · rw [hc] at h
    exact absurd h (upperExpansions_long _ hcodes).2

theorem lowerChar_ne_nil (c : Char) : lowerChar c ≠ [] := by
  rcases lowerChar_eq_singleton_or c with ⟨d, hd⟩ | rfl
  · simp [hd]
  · decide +kernel

/-! ## Texts -/

-- Without a capital sigma in it, a part of a text has the lower case of its characters.
theorem lowerFrom_append {part : List Char} (h : capitalSigma ∉ part) (before rest : List Char) :
    lowerFrom before (part ++ rest) = part.flatMap lowerChar ++ lowerFrom (part.reverse ++ before) rest := by
  induction part generalizing before with
  | nil => rfl
  | cons c part ih =>
    have hc : c ≠ capitalSigma := fun hc => h (by simp [hc])
    rw [List.cons_append, lowerFrom, if_neg hc, ih (fun hmem => h (List.mem_cons_of_mem _ hmem))]
    simp

theorem lowerFrom_upperChars_cons (before after : List Char) (c : Char) :
    lowerFrom (upperBefore before) (upperChars (c :: after)) =
      recasedAt before after c ++ lowerFrom (upperBefore (c :: before)) (upperChars after) := by
  have hafter : upperChars (c :: after) = upperChar c ++ upperChars after := rfl
  have hbefore : upperBefore (c :: before) = (upperChar c).reverse ++ upperBefore before := rfl
  unfold recasedAt
  rw [hafter, hbefore]
  by_cases hsigma : upperChar c = [capitalSigma]
  · rw [if_pos hsigma, hsigma, List.singleton_append, lowerFrom, if_pos rfl]
    rfl
  · rw [if_neg hsigma, lowerFrom_append (fun hmem => hsigma (upperChar_eq_of_mem hmem))]

theorem length_lowerAt_le (before after : List Char) (c : Char) :
    (lowerAt before after c).length ≤ (recasedAt before after c).length := by
  have hlong : 1 ≤ (recasedAt before after c).length := by
    unfold recasedAt
    split
    · simp
    · cases hupper : upperChar c with
      | nil => exact absurd hupper (upperChar_ne_nil c)
      | cons d ds =>
        have := List.length_pos_iff.2 (lowerChar_ne_nil d)
        simp
        omega
  unfold lowerAt
  split
  · exact hlong
  · rcases lowerChar_eq_singleton_or c with ⟨d, hd⟩ | rfl
    · rw [hd]
      exact hlong
    · -- the one character with a longer lower case is its own upper case
      have hupper : upperChar (Char.ofNat 304) = [Char.ofNat 304] := by decide +kernel
      unfold recasedAt
      rw [if_neg (by rw [hupper]; decide), hupper]
      simp

theorem length_lowerFrom_le (before cs : List Char) :
    (lowerFrom before cs).length ≤ (lowerFrom (upperBefore before) (upperChars cs)).length := by
  induction cs generalizing before with
  | nil => exact Nat.le_refl 0
  | cons c after ih =>
    have hcons : lowerFrom before (c :: after) = lowerAt before after c ++ lowerFrom (c :: before) after := rfl
    have hhead := length_lowerAt_le before after c
    have htail := ih (c :: before)
    rw [hcons, lowerFrom_upperChars_cons, List.length_append, List.length_append]
    omega

theorem lowerFrom_upperChars_eq_iff (before cs : List Char) :
    lowerFrom (upperBefore before) (upperChars cs) = lowerFrom before cs ↔ keepsFrom before cs = true := by
  induction cs generalizing before with
  | nil => exact ⟨fun _ => rfl, fun _ => rfl⟩
  | cons c after ih =>
    have hcons : lowerFrom before (c :: after) = lowerAt before after c ++ lowerFrom (c :: before) after := rfl
    have hhead := length_lowerAt_le before after c
    have htail := length_lowerFrom_le (c :: before) after
    rw [lowerFrom_upperChars_cons, hcons, keepsFrom, Bool.and_eq_true, beq_iff_eq, ← ih]
    constructor
    · intro h
      have hlength := congrArg List.length h
      rw [List.length_append, List.length_append] at hlength
      exact List.append_inj h (by omega)
    · rintro ⟨h, h'⟩
      rw [h, h']

/-- **Upper case keeps the lower case of a text exactly if it does so at every character.** -/
theorem lower_upper_eq_iff (s : String) : lower (upper s) = lower s ↔ keepsCase s = true := by
  unfold lower upper keepsCase
  rw [String.toList_ofList, String.ofList_inj]
  exact lowerFrom_upperChars_eq_iff [] s.toList

/-! ## Plain letters -/

theorem recased_ascii : ∀ n < 128, upperChar (Char.ofNat n) ≠ [capitalSigma] ∧ Char.ofNat n ≠ capitalSigma ∧
    (upperChar (Char.ofNat n)).flatMap lowerChar = lowerChar (Char.ofNat n) := by decide +kernel

theorem keepsFrom_of_ascii {cs : List Char} (h : ∀ c ∈ cs, c.toNat < 128) (before : List Char) :
    keepsFrom before cs = true := by
  induction cs generalizing before with
  | nil => rfl
  | cons c after ih =>
    have hc := recased_ascii c.toNat (h c List.mem_cons_self)
    rw [Char.ofNat_toNat] at hc
    rw [keepsFrom, Bool.and_eq_true, beq_iff_eq, recasedAt, lowerAt, if_neg hc.1, if_neg hc.2.1]
    exact ⟨hc.2.2, ih (fun d hd => h d (List.mem_cons_of_mem _ hd)) _⟩

theorem keepsCase_of_ascii {s : String} (h : ∀ c ∈ s.toList, c.toNat < 128) : keepsCase s = true :=
  keepsFrom_of_ascii h []

-- A final sigma comes back where it stood, a sharp s does not.
example : keepsCase "λόγος" = true ∧ keepsCase "λόγοσ" = false ∧ keepsCase "straße" = false := by decide +kernel

end LooseExpr.Text
