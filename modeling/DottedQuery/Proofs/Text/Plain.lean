import DottedQuery.Proofs.Text.Trimmed
import DottedQuery.Text.Name
import DottedQuery.Text.Segments

/-!
# Plain names

A plain name is a letter or `_`, followed by letters, digits and `_`, where the letters are the
fifty-two of ASCII and the digits its ten (`DottedQuery.Text.Plain`); `DottedQuery.Text.isPlain` is
the scan that tells them (`DottedQuery.Text.isPlain_iff`). No character of such a name is blank, so
a text of blanks has no part that is one (`DottedQuery.Text.not_plain_of_trim_eq`).
-/

namespace DottedQuery

namespace Text

/-! ### The characters of plain names -/

/-- The characters `[A-Za-z_]`. -/
def NameLetter (c : Char) : Prop := ('A' ≤ c ∧ c ≤ 'Z') ∨ ('a' ≤ c ∧ c ≤ 'z') ∨ c = '_'

/-- The characters `[0-9]`. -/
def NameDigit (c : Char) : Prop := '0' ≤ c ∧ c ≤ '9'

/-- The names `[A-Za-z_][A-Za-z0-9_]*`. -/
def Plain (s : String) : Prop :=
  ∃ c cs, s.toList = c :: cs ∧ NameLetter c ∧ ∀ d ∈ cs, NameLetter d ∨ NameDigit d

theorem isNameStart_iff {c : Char} : isNameStart c = true ↔ NameLetter c := by
  have hletters : isNameStart c = ((decide ('A' ≤ c ∧ c ≤ 'Z') ||
      (decide ('a' ≤ c) && decide (c ≤ 'z'))) || decide (c = '_')) := rfl
  rw [hletters]
  simp only [NameLetter, Bool.or_eq_true, Bool.and_eq_true, decide_eq_true_eq, or_assoc]

theorem isDigit_iff {c : Char} : c.isDigit = true ↔ NameDigit c := by
  have hdigits : c.isDigit = (decide ('0' ≤ c) && decide (c ≤ '9')) := rfl
  rw [hdigits]
  simp only [NameDigit, Bool.and_eq_true, decide_eq_true_eq]

theorem isNamePart_iff {c : Char} : isNamePart c = true ↔ NameLetter c ∨ NameDigit c := by
  have hparts : isNamePart c = ((c.isAlpha || c.isDigit) || decide (c = '_')) := rfl
  have hstart : isNameStart c = (c.isAlpha || decide (c = '_')) := rfl
  rw [← isNameStart_iff, ← isDigit_iff, hparts, hstart]
  simp only [Bool.or_eq_true, decide_eq_true_eq]
  exact or_right_comm

/-- **The scan tells plain names.** -/
theorem isPlain_iff {s : String} : isPlain s = true ↔ Plain s := by
  unfold isPlain Plain
  cases s.toList with
  | nil => simp [isPlainChars]
  | cons c cs =>
    simp only [isPlainChars, Bool.and_eq_true, isNameStart_iff, List.all_eq_true, isNamePart_iff]
    constructor
    · rintro ⟨hc, hcs⟩
      exact ⟨c, cs, rfl, hc, hcs⟩
    · rintro ⟨d, ds, hchars, hd, hds⟩
      obtain ⟨rfl, rfl⟩ := List.cons.inj hchars
      exact ⟨hd, hds⟩

/-- Letters are numbered from `A` to `Z` and, with `_`, from there to `z`. -/
theorem toNat_of_nameLetter {c : Char} (h : NameLetter c) :
    (0x41 ≤ c.toNat ∧ c.toNat ≤ 0x5A) ∨ (0x5F ≤ c.toNat ∧ c.toNat ≤ 0x7A) := by
  rcases h with ⟨hl, hu⟩ | ⟨hl, hu⟩ | rfl
  · exact Or.inl ⟨hl, hu⟩
  · exact Or.inr ⟨Nat.le_trans (by decide) (show ('a').toNat ≤ c.toNat from hl), hu⟩
  · exact Or.inr (by decide)

/-- A letter is no digit. -/
theorem not_isDigit_of_nameLetter {c : Char} (h : NameLetter c) : c.isDigit = false := by
  have hrange := toNat_of_nameLetter h
  rw [← Bool.not_eq_true, isDigit_iff]
  rintro ⟨-, hu⟩
  have hu : c.toNat ≤ 0x39 := hu
  omega

/-! ### Blanks -/

/-- A letter is not blank. -/
theorem not_isBlank_of_nameLetter {c : Char} (h : NameLetter c) : isBlank c = false := by
  have hrange := toNat_of_nameLetter h
  simp only [isBlank, blankRanges, List.any_cons, List.any_nil, Bool.or_false, Bool.or_eq_false_iff,
    Bool.and_eq_false_iff, decide_eq_false_iff_not]
  omega

/-- The characters of a part are among those that were cut. -/
theorem mem_of_mem_cut {sep : Char} {cs part : List Char} (hpart : part ∈ cut sep cs) {c : Char}
    (hc : c ∈ part) : c ∈ cs := by
  induction cs generalizing part with
  | nil => simp_all [cut]
  | cons d ds ih =>
    rw [cut] at hpart
    split at hpart
    · rcases List.mem_cons.mp hpart with rfl | hpart
      · exact absurd hc List.not_mem_nil
      · exact List.mem_cons_of_mem _ (ih hpart hc)
    · obtain ⟨q, qs, hq⟩ := List.exists_cons_of_ne_nil (cut_ne_nil sep ds)
      rw [hq] at hpart ih
      rcases List.mem_cons.mp hpart with rfl | hpart
      · rcases List.mem_cons.mp hc with rfl | hc
        · exact List.mem_cons_self
        · exact List.mem_cons_of_mem _ (ih List.mem_cons_self hc)
      · exact List.mem_cons_of_mem _ (ih (List.mem_cons_of_mem _ hpart) hc)

/-- No part of a text of blanks is a plain name. -/
theorem not_plain_of_trim_eq {s : String} (h : trim s = "") {sep : Char} {part : String}
    (hpart : part ∈ split sep s) : ¬Plain part := by
  rintro ⟨c, cs, hchars, hc, -⟩
  obtain ⟨chars, hcut, rfl⟩ := List.mem_map.mp hpart
  rw [String.toList_ofList] at hchars
  have hmem : c ∈ s.toList := mem_of_mem_cut hcut (by rw [hchars]; exact List.mem_cons_self)
  have hblank := trim_eq_empty_iff.mp h c hmem
  rw [not_isBlank_of_nameLetter hc] at hblank
  exact Bool.noConfusion hblank

end Text

end DottedQuery
