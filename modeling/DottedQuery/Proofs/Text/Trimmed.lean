import DottedQuery.Text.Blank
import Mathlib.Data.List.Forall2
import Mathlib.Data.List.TakeWhile

/-!
# Trimmed texts and the case of letters

A text is *trimmed* (`DottedQuery.Text.Trimmed`) to the part of it that has nothing but blanks
before and behind it, and no blank at either end. There is one such part of every text, and
`DottedQuery.Text.trim` finds it (`DottedQuery.Text.trimmed_iff`); it is empty exactly if the whole
text is blank, and trimming it again leaves it as it is.

A word is read without regard to ASCII case if its letters may be small or capital, each for
itself (`DottedQuery.Text.Spells`).
-/

namespace DottedQuery

namespace Text

/-! ### Trimming -/

/-- **The text without the blanks around it.** -/
structure Trimmed (s t : String) : Prop where
  /-- Only blanks stand before and behind it. -/
  around : ∃ front back, s.toList = front ++ t.toList ++ back ∧
    (∀ c ∈ front, isBlank c = true) ∧ ∀ c ∈ back, isBlank c = true
  /-- It does not begin with a blank. -/
  first : ∀ c, t.toList.head? = some c → isBlank c = false
  /-- It does not end with a blank. -/
  last : ∀ c, t.toList.getLast? = some c → isBlank c = false

/-- What follows a run of blanks is found by dropping them. -/
theorem dropWhile_blanks {front cs : List Char} (hfront : ∀ c ∈ front, isBlank c = true)
    (hcs : ∀ c, cs.head? = some c → isBlank c = false) :
    (front ++ cs).dropWhile isBlank = cs := by
  rw [List.dropWhile_append_of_pos hfront]
  cases cs with
  | nil => rfl
  | cons c cs => exact List.dropWhile_cons_of_neg (by simp [hcs c rfl])

/-- What is left when blanks are dropped does not begin with one. -/
theorem head?_dropWhile_blanks {cs : List Char} {c : Char}
    (h : (cs.dropWhile isBlank).head? = some c) : isBlank c = false := by
  have hfirst := List.head?_dropWhile_not isBlank cs
  rwa [h] at hfirst

/-- Characters between blanks are found by trimming. -/
theorem trimChars_of_blanks {front cs back : List Char} (hfront : ∀ c ∈ front, isBlank c = true)
    (hback : ∀ c ∈ back, isBlank c = true) (hfirst : ∀ c, cs.head? = some c → isBlank c = false)
    (hlast : ∀ c, cs.getLast? = some c → isBlank c = false) :
    trimChars (front ++ cs ++ back) = cs := by
  have hreverse : ∀ c ∈ back.reverse, isBlank c = true := fun c hc =>
    hback c (List.mem_reverse.mp hc)
  have hdrop : (front ++ cs ++ back).dropWhile isBlank =
      if cs = [] then [] else cs ++ back := by
    rw [List.append_assoc]
    split
    · next hnil =>
      subst hnil
      rw [List.nil_append, List.dropWhile_eq_nil_iff]
      simpa [or_imp, forall_and] using ⟨hfront, hback⟩
    · next hne =>
      refine dropWhile_blanks hfront fun c hc => hfirst c ?_
      rwa [List.head?_append_of_ne_nil _ hne] at hc
  rw [trimChars, hdrop]
  split
  · next hnil => simp [hnil]
  · rw [List.reverse_append, dropWhile_blanks hreverse fun c hc => hlast c ?_, List.reverse_reverse]
    rwa [List.head?_reverse] at hc

theorem trimmed_trim (s : String) : Trimmed s (trim s) := by
  obtain ⟨cs, hcs⟩ : ∃ cs, s.toList.dropWhile isBlank = cs := ⟨_, rfl⟩
  have htrim : (trim s).toList = (cs.reverse.dropWhile isBlank).reverse := by
    rw [toList_trim, trimChars, hcs]
  have hfront : s.toList = s.toList.takeWhile isBlank ++ cs := by
    rw [← hcs, List.takeWhile_append_dropWhile]
  have hback : cs = (trim s).toList ++ (cs.reverse.takeWhile isBlank).reverse := by
    rw [htrim, ← List.reverse_append, List.takeWhile_append_dropWhile, List.reverse_reverse]
  constructor
  case around =>
    refine ⟨s.toList.takeWhile isBlank, (cs.reverse.takeWhile isBlank).reverse, ?_, ?_, ?_⟩
    · rw [List.append_assoc, ← hback, ← hfront]
    · exact fun c hc => List.mem_takeWhile_imp hc
    · exact fun c hc => List.mem_takeWhile_imp (List.mem_reverse.mp hc)
  case first =>
    intro c hc
    have hdrop : (s.toList.dropWhile isBlank).head? = some c := by
      rw [hcs, hback, List.head?_append, hc, Option.some_or]
    exact head?_dropWhile_blanks hdrop
  case last =>
    intro c hc
    rw [htrim, List.getLast?_reverse] at hc
    exact head?_dropWhile_blanks hc

/-- **Trimming finds the text without the blanks around it.** -/
theorem trimmed_iff {s t : String} : Trimmed s t ↔ t = trim s := by
  constructor
  · rintro ⟨⟨front, back, hs, hfront, hback⟩, hfirst, hlast⟩
    refine String.toList_inj.mp ?_
    rw [toList_trim, hs, trimChars_of_blanks hfront hback hfirst hlast]
  · rintro rfl
    exact trimmed_trim s

/-- A trimmed text is trimmed already. -/
theorem Trimmed.trim_eq {s t : String} (h : Trimmed s t) : trim t = t :=
  (trimmed_iff.mp ⟨⟨[], [], by simp, by simp, by simp⟩, h.first, h.last⟩).symm

/-- A text is trimmed to nothing if it is blank throughout. -/
theorem trim_eq_empty_iff {s : String} : trim s = "" ↔ ∀ c ∈ s.toList, isBlank c = true := by
  constructor
  · intro h
    obtain ⟨⟨front, back, hs, hfront, hback⟩, -, -⟩ := trimmed_trim s
    rw [h, String.toList_empty, List.append_nil] at hs
    intro c hc
    rcases List.mem_append.mp (hs ▸ hc) with hc | hc
    · exact hfront c hc
    · exact hback c hc
  · intro h
    exact (trimmed_iff.mp ⟨⟨s.toList, [], by simp, h, by simp⟩, by simp, by simp⟩).symm

/-! ### The case of letters -/

/-- A text spells a word, given as its letters: each one small or capital. -/
def Spells (s : String) (letters : List (Char × Char)) : Prop :=
  List.Forall₂ (fun c letter => c = letter.1 ∨ c = letter.2) s.toList letters

/-- Capitals are made small by a step of 32, and nothing else is changed. -/
theorem toNat_toLower (c : Char) :
    c.toLower.toNat = if 0x41 ≤ c.toNat ∧ c.toNat ≤ 0x5A then c.toNat + 32 else c.toNat := by
  have hcapital : ('A'.val ≤ c.val ∧ c.val ≤ 'Z'.val) ↔ 0x41 ≤ c.toNat ∧ c.toNat ≤ 0x5A := by
    simp only [UInt32.le_iff_toNat_le, Char.toNat_val]
    exact Iff.rfl
  unfold Char.toLower
  by_cases h : 0x41 ≤ c.toNat ∧ c.toNat ≤ 0x5A
  · rw [dif_pos (hcapital.mpr h), if_pos h]
    change (c.val + ('a'.val - 'A'.val)).toNat = _
    rw [UInt32.toNat_add]
    change (c.toNat + 32) % 2 ^ 32 = _
    omega
  · rw [dif_neg (mt hcapital.mp h), if_neg h]

/-- A character is a letter, small or capital, if it is the small letter once made small. -/
theorem toLower_eq_iff {c capital : Char} (h : 0x41 ≤ capital.toNat ∧ capital.toNat ≤ 0x5A) :
    c.toLower = capital.toLower ↔ c = capital.toLower ∨ c = capital := by
  simp only [← Char.toNat_inj, toNat_toLower, if_pos h]
  split <;> omega

/-- **A text spells a word if it is the word once its letters are made small.** -/
theorem spells_iff {s : String} {letters : List (Char × Char)}
    (h : ∀ letter ∈ letters, (0x41 ≤ letter.2.toNat ∧ letter.2.toNat ≤ 0x5A) ∧
      letter.1 = letter.2.toLower) :
    Spells s letters ↔ (lower s).toList = letters.map Prod.fst := by
  rw [toList_lower, Spells]
  generalize s.toList = cs
  induction letters generalizing cs with
  | nil => simp
  | cons letter letters ih =>
    obtain ⟨⟨hcapital, hsmall⟩, hletters⟩ := List.forall_mem_cons.mp h
    cases cs with
    | nil => simp
    | cons c cs =>
      simp [List.forall₂_cons, ih hletters, hsmall, toLower_eq_iff hcapital]

end Text

end DottedQuery
