/-!
# Cutting a text at a separator

`DottedQuery.Text.split` cuts a text at every occurrence of one character and keeps empty parts,
so `n` separators give `n + 1` parts. Dotted paths are cut at `.` and the members of a set
written as one text at `,`.

* `DottedQuery.Text.intercalate_cut` – the parts with the separator between them are the text
  again;
* `DottedQuery.Text.cut_intercalate` – cutting finds the parts again;
* `DottedQuery.Text.not_mem_of_mem_cut` – no part holds the separator.
-/

namespace DottedQuery

namespace Text

/-- The parts of a list of characters between the occurrences of `sep`. -/
def cut (sep : Char) : List Char → List (List Char)
  | [] => [[]]
  | c :: cs =>
    if c = sep then [] :: cut sep cs
    else
      match cut sep cs with
      | [] => [[c]]
      | part :: parts => (c :: part) :: parts

/-- The parts of a text between the occurrences of `sep`. -/
def split (sep : Char) (s : String) : List String :=
  (cut sep s.toList).map String.ofList

theorem cut_ne_nil (sep : Char) (cs : List Char) : cut sep cs ≠ [] := by
  cases cs with
  | nil => simp [cut]
  | cons c cs =>
    rw [cut]
    split
    · simp
    · split <;> simp

/-- Cutting is the splitting of lists. -/
theorem cut_eq_splitOn (sep : Char) (cs : List Char) : cut sep cs = cs.splitOn sep := by
  induction cs with
  | nil => rfl
  | cons c cs ih =>
    obtain ⟨part, parts, hp⟩ := List.exists_cons_of_ne_nil (cut_ne_nil sep cs)
    rw [cut, List.splitOn_cons_eq_if_modifyHead, ← ih, hp]
    by_cases h : c = sep <;> simp [h]

/-- **Cutting loses nothing**: the parts, with the separator between them, are the text. -/
theorem intercalate_cut (sep : Char) (cs : List Char) : [sep].intercalate (cut sep cs) = cs := by
  rw [cut_eq_splitOn]
  exact List.intercalate_splitOn sep

/-- **Cutting finds the parts again** that were put together, if none of them has the separator. -/
theorem cut_intercalate {sep : Char} {parts : List (List Char)} (hne : parts ≠ [])
    (h : ∀ part ∈ parts, sep ∉ part) : cut sep ([sep].intercalate parts) = parts := by
  rw [cut_eq_splitOn]
  exact List.splitOn_intercalate sep h hne

/-- There is one part more than there are separators. -/
theorem length_cut (sep : Char) (cs : List Char) : (cut sep cs).length = cs.count sep + 1 := by
  induction cs with
  | nil => rfl
  | cons c cs ih =>
    obtain ⟨part, parts, hp⟩ := List.exists_cons_of_ne_nil (cut_ne_nil sep cs)
    rw [hp, List.length_cons] at ih
    rw [cut, hp]
    by_cases h : c = sep
    · simp [h, ih]
    · simp [h, ih]

/-- The separator stands in none of the parts. -/
theorem not_mem_of_mem_cut {sep : Char} {cs part : List Char} (h : part ∈ cut sep cs) :
    sep ∉ part := by
  induction cs generalizing part with
  | nil => simp_all [cut]
  | cons c cs ih =>
    rw [cut] at h
    split at h
    · rcases List.mem_cons.1 h with rfl | h
      · simp
      · exact ih h
    · next hc =>
      obtain ⟨q, qs, hq⟩ := List.exists_cons_of_ne_nil (cut_ne_nil sep cs)
      rw [hq] at h ih
      rcases List.mem_cons.1 h with rfl | h
      · have := ih List.mem_cons_self
        simp [Ne.symm hc, this]
      · exact ih (List.mem_cons_of_mem _ h)

/-! ### Parts of texts -/

theorem intercalate_split (sep : Char) (s : String) :
    (String.singleton sep).intercalate (split sep s) = s := by
  refine String.toList_inj.mp ?_
  rw [String.toList_intercalate, String.toList_singleton, split, List.map_map]
  simpa using intercalate_cut sep s.toList

theorem split_intercalate {sep : Char} {parts : List String} (hne : parts ≠ [])
    (h : ∀ part ∈ parts, sep ∉ part.toList) :
    split sep ((String.singleton sep).intercalate parts) = parts := by
  have hcut : cut sep ([sep].intercalate (parts.map String.toList)) = parts.map String.toList :=
    cut_intercalate (mt List.map_eq_nil_iff.mp hne) (List.forall_mem_map.mpr h)
  rw [split, String.toList_intercalate, String.toList_singleton, hcut, List.map_map]
  simp

theorem length_split (sep : Char) (s : String) :
    (split sep s).length = s.toList.count sep + 1 := by
  rw [split, List.length_map, length_cut]

theorem not_mem_of_mem_split {sep : Char} {s part : String} (h : part ∈ split sep s) :
    sep ∉ part.toList := by
  obtain ⟨cs, hcs, rfl⟩ := List.mem_map.1 h
  rw [String.toList_ofList]
  exact not_mem_of_mem_cut hcs

end Text

end DottedQuery
