import DottedQuery.Proofs.Search.Defects

/-!
# The parameters of an order

An order is asked for by two texts, and either of them may be missing. What is done about them
follows from what is left when the blanks around them are taken away:

| path                 | direction            | result                                       |
|----------------------|----------------------|----------------------------------------------|
| absent               | anything             | no order                                     |
| anything             | absent               | no order                                     |
| of plain names       | `asc` or `desc`      | the order                                    |
| of plain names       | any other word       | a message about the direction                |
| with another segment | `asc` or `desc`      | a message about the path                     |
| with another segment | any other word       | a message about each                         |

A parameter is *absent* (`DottedQuery.OrderPath.Absent`) if it is missing or blank throughout, and
otherwise it *gives* the text without the blanks around it (`DottedQuery.OrderPath.Gives`). That the
table is complete and right is `DottedQuery.OrderPath.ofParams_exact`.
-/

namespace DottedQuery

/-! ### Directions -/

/-- The letters of a direction, each one small and capital. -/
def Direction.letters : Direction → List (Char × Char)
  | asc => [('a', 'A'), ('s', 'S'), ('c', 'C')]
  | desc => [('d', 'D'), ('e', 'E'), ('s', 'S'), ('c', 'C')]

/-- A text is the word for a direction, in letters of either case. -/
def Direction.Spelled (d : Direction) (text : String) : Prop := Text.Spells text d.letters

theorem Direction.spelled_iff {d : Direction} {text : String} :
    d.Spelled text ↔ Text.lower text = d.sql := by
  have hletters : ∀ letter ∈ d.letters,
      (0x41 ≤ letter.2.toNat ∧ letter.2.toNat ≤ 0x5A) ∧ letter.1 = letter.2.toLower := by
    cases d <;> decide
  have hsql : d.letters.map Prod.fst = d.sql.toList := by
    cases d <;> rfl
  rw [Spelled, Text.spells_iff hletters, hsql, String.toList_inj]

/-- **The direction that a word stands for is the one it spells**, without the blanks around it. -/
theorem Direction.parse?_eq_some_iff {word : String} {d : Direction} :
    parse? word = some d ↔ d.Spelled (Text.trim word) := by
  rw [spelled_iff, parse?]
  generalize Text.lower (Text.trim word) = s
  constructor
  · intro h
    have hsql := List.find?_some (p := fun e : Direction => decide (e.sql = s)) h
    exact (of_decide_eq_true hsql).symm
  · rintro rfl
    cases d <;> rfl

namespace OrderPath

/-! ### Parameters -/

/-- A parameter that is missing, or blank throughout. -/
def Absent (param : Option String) : Prop :=
  ∀ text, param = some text → ∀ c ∈ text.toList, Text.isBlank c = true

/-- A parameter gives the text that it is without the blanks around it, if there is any. -/
def Gives (param : Option String) (t : String) : Prop :=
  ∃ text, param = some text ∧ Text.Trimmed text t ∧ t ≠ ""

theorem param?_eq_some_iff {param : Option String} {t : String} :
    param? param = some t ↔ Gives param t := by
  cases param with
  | none => simp [param?, Gives]
  | some text =>
    simp only [param?, Gives, Option.map_some, Option.filter_eq_some_iff, Option.some.injEq,
      exists_eq_left', Text.trimmed_iff, decide_eq_true_eq]
    exact and_congr_left' eq_comm

theorem param?_eq_none_iff {param : Option String} : param? param = none ↔ Absent param := by
  cases param with
  | none => simp [param?, Absent]
  | some text => simp [param?, Absent, Text.trim_eq_empty_iff]

/-! ### Paths and directions that are good -/

/-- A path all of whose segments are plain names. -/
def Legible (path : String) : Prop := ∀ segment ∈ Text.split '.' path, Text.Plain segment

/-- **An order has the segments of a path**: relations and field, with points between them, are the
path, and the criterion with the same path follows the same relations to the same field. -/
structure Splits (order : OrderPath) (path : String) : Prop where
  /-- The segments are put together to the path. -/
  joined : ".".intercalate (order.path.relations ++ [order.path.field]) = path
  /-- No segment has a point. -/
  whole : ∀ segment ∈ order.path.relations ++ [order.path.field], '.' ∉ segment.toList
  /-- A criterion splits the path alike. -/
  criterion : ∀ c : Criterion, c.field = some path → c.path? = some order.path

theorem splits_ofText (path : String) (d : Direction) : (ofText path d).Splits path := by
  have hsegments : (ofText path d).path.relations ++ [(ofText path d).path.field] =
      Text.split '.' path := FieldPath.segments_ofText path
  refine ⟨?_, ?_, fun c hc => ?_⟩
  · rw [hsegments]
    exact Text.intercalate_split '.' path
  · rw [hsegments]
    exact fun _ => Text.not_mem_of_mem_split
  · rw [Criterion.path?, hc]
    rfl

/-! ### The messages -/

/-- **What is said about a path and a direction**: there is a message about each of them that is
not good, and there are no others. -/
structure Reports (path direction : String) (m : Messages) : Prop where
  /-- The path is reported if a segment of it is no plain name. -/
  path : "order.path" ∈ m.places ↔ ¬Legible path
  /-- The direction is reported if it is none. -/
  direction : "order.direction" ∈ m.places ↔ ¬∃ d : Direction, d.Spelled direction
  /-- Nothing else is reported. -/
  only : ∀ place ∈ m.places, place = "order.path" ∨ place = "order.direction"

/-- What is complained about in an order. -/
def complaints (path direction : String) : List (String × String) :=
  (if (FieldPath.ofText path).isPlain then [] else [("order.path", badPath path)]) ++
    (if (Direction.parse? direction).isSome then []
      else [("order.direction", badDirection direction)])

/-- An order of two texts collects its complaints. -/
theorem ofTexts_eq (path direction : String) :
    ofTexts path direction =
      match Direction.parse? direction, complaints path direction with
      | some d, [] => .ok (ofText path d)
      | _, cs => .error (.invalid (Messages.empty.collect cs)) := by
  unfold ofTexts complaints
  cases (FieldPath.ofText path).isPlain <;> cases Direction.parse? direction <;> rfl

variable {path direction : String}

theorem isSome_parse?_iff (h : Text.trim direction = direction) :
    (Direction.parse? direction).isSome = true ↔ ∃ d : Direction, d.Spelled direction := by
  rw [Option.isSome_iff_exists]
  exact exists_congr fun d => by rw [Direction.parse?_eq_some_iff, h]

/-- The messages of the complaints are those about the path and the direction. -/
theorem reports_complaints (h : Text.trim direction = direction) :
    Reports path direction (Messages.empty.collect (complaints path direction)) := by
  have hplaces : ∀ place, place ∈ (Messages.empty.collect (complaints path direction)).places ↔
      (¬Legible path ∧ place = "order.path") ∨
        (¬(∃ d : Direction, d.Spelled direction) ∧ place = "order.direction") := by
    intro place
    rw [Messages.mem_places_collect, Legible, ← FieldPath.isPlain_ofText_iff,
      ← isSome_parse?_iff h, complaints]
    cases (FieldPath.ofText path).isPlain <;> cases (Direction.parse? direction).isSome <;>
      simp [Messages.places, Messages.empty, eq_comm]
  refine ⟨?_, ?_, fun place hplace => ?_⟩
  · simp [hplaces]
  · simp [hplaces]
  · rcases (hplaces place).mp hplace with ⟨-, hpath⟩ | ⟨-, hdirection⟩
    · exact Or.inl hpath
    · exact Or.inr hdirection

/-- Nothing is complained about exactly if the path and the direction are good. -/
theorem complaints_eq_nil_iff (h : Text.trim direction = direction) :
    complaints path direction = [] ↔ Legible path ∧ ∃ d : Direction, d.Spelled direction := by
  rw [Legible, ← FieldPath.isPlain_ofText_iff, ← isSome_parse?_iff h, complaints]
  cases (FieldPath.ofText path).isPlain <;> cases (Direction.parse? direction).isSome <;> simp

/-- **The order of a path and a direction**, neither with blanks around it: there is one exactly if
both are good, and otherwise what is not good is reported. -/
theorem ofTexts_cases (h : Text.trim direction = direction) :
    (∃ d : Direction, d.Spelled direction ∧ Legible path ∧
      ofTexts path direction = .ok (ofText path d)) ∨
    (¬(Legible path ∧ ∃ d : Direction, d.Spelled direction) ∧
      ∃ m, ofTexts path direction = .error (.invalid m) ∧ Reports path direction m) := by
  by_cases hgood : Legible path ∧ ∃ d : Direction, d.Spelled direction
  · obtain ⟨d, hd⟩ := hgood.2
    have hparse : Direction.parse? direction = some d := by
      rwa [Direction.parse?_eq_some_iff, h]
    refine Or.inl ⟨d, hd, hgood.1, ?_⟩
    rw [ofTexts_eq, hparse, (complaints_eq_nil_iff h).mpr hgood]
  · have hcomplaints : complaints path direction ≠ [] := mt (complaints_eq_nil_iff h).mp hgood
    refine Or.inr ⟨hgood, _, ?_, reports_complaints h⟩
    rw [ofTexts_eq]
    obtain ⟨c, cs, hcs⟩ := List.exists_cons_of_ne_nil hcomplaints
    rw [hcs]
    cases Direction.parse? direction <;> rfl

/-- Parameters that give a path and a direction ask for their order. -/
theorem ofParams_of_gives {orderBy orderAs : Option String} (hpath : Gives orderBy path)
    (hdirection : Gives orderAs direction) :
    ofParams orderBy orderAs = (ofTexts path direction).map some := by
  rw [ofParams, param?_eq_some_iff.mpr hpath, param?_eq_some_iff.mpr hdirection]

/-- No order is asked for exactly if a parameter is absent. -/
theorem ofParams_eq_none_iff {orderBy orderAs : Option String} :
    ofParams orderBy orderAs = .ok none ↔ Absent orderBy ∨ Absent orderAs := by
  rw [← param?_eq_none_iff, ← param?_eq_none_iff, ofParams]
  rcases param? orderBy with _ | path
  · simp
  rcases param? orderAs with _ | direction
  · simp
  rcases h : ofTexts path direction with fault | order <;> simp [h, Except.map]

/-- **The parameters of an order are read exactly.** There is no order exactly if one of the two is
absent, whatever the other one is. Otherwise they give a path and a direction. If all segments of
the path are plain names and the direction is `asc` or `desc` in letters of either case, then there
is an order, in this direction and with the segments of the path; and otherwise there are messages
about what is not good, and about nothing else. -/
theorem ofParams_exact (orderBy orderAs : Option String) :
    (ofParams orderBy orderAs = .ok none ↔ Absent orderBy ∨ Absent orderAs) ∧
    ∀ path direction, Gives orderBy path → Gives orderAs direction →
      ((∃ order, ofParams orderBy orderAs = .ok (some order)) ↔
        Legible path ∧ ∃ d : Direction, d.Spelled direction) ∧
      (∀ order, ofParams orderBy orderAs = .ok (some order) →
        order.direction.Spelled direction ∧ order.Splits path) ∧
      (¬(Legible path ∧ ∃ d : Direction, d.Spelled direction) →
        ∃ m, ofParams orderBy orderAs = .error (.invalid m) ∧ Reports path direction m) := by
  refine ⟨ofParams_eq_none_iff, fun path direction hpath hdirection => ?_⟩
  have htrim : Text.trim direction = direction := by
    obtain ⟨text, -, htrimmed, -⟩ := hdirection
    exact htrimmed.trim_eq
  rw [ofParams_of_gives hpath hdirection]
  have hcases := @ofTexts_cases path direction htrim
  rcases hcases with ⟨d, hd, hlegible, horder⟩ | ⟨hbad, m, horder, hm⟩
  · rw [horder]
    refine ⟨⟨fun _ => ⟨hlegible, d, hd⟩, fun _ => ⟨_, rfl⟩⟩, fun order heq => ?_,
      fun hbad => absurd ⟨hlegible, d, hd⟩ hbad⟩
    obtain rfl : ofText path d = order := Option.some.inj (Except.ok.inj heq)
    exact ⟨hd, splits_ofText path d⟩
  · rw [horder]
    refine ⟨⟨fun ⟨order, heq⟩ => ?_, fun hgood => absurd hgood hbad⟩, fun order heq => ?_,
      fun _ => ⟨m, rfl, hm⟩⟩
    · simp [Except.map] at heq
    · simp [Except.map] at heq

/-- The theorem at a path and a direction with blanks around them, and at two that are both not
good. -/
theorem ofParams_exact_name :
    (∃ order, ofParams (some " author.name\n") (some "\u00a0DeSC") = .ok (some order) ∧
      Direction.desc.Spelled "DeSC" ∧ order.Splits "author.name") ∧
    ∃ m, ofParams (some "author..name") (some "sideways") = .error (.invalid m) ∧
      "order.path" ∈ m.places ∧ "order.direction" ∈ m.places := by
  have hgives : ∀ text t, Text.trim text = t → t ≠ "" → Gives (some text) t :=
    fun text t ht hne => ⟨text, rfl, Text.trimmed_iff.mpr ht.symm, hne⟩
  constructor
  · obtain ⟨hsome, horder, -⟩ := (ofParams_exact (some " author.name\n") (some "\u00a0DeSC")).2
      "author.name" "DeSC" (hgives _ _ (by decide) (by decide)) (hgives _ _ (by decide) (by decide))
    have hdesc : Direction.desc.Spelled "DeSC" := Direction.spelled_iff.mpr (by decide)
    obtain ⟨order, h⟩ := hsome.mpr ⟨FieldPath.isPlain_ofText_iff.mp (by decide), _, hdesc⟩
    exact ⟨order, h, hdesc, (horder order h).2⟩
  · obtain ⟨-, -, hbad⟩ := (ofParams_exact (some "author..name") (some "sideways")).2
      "author..name" "sideways" (hgives _ _ (by decide) (by decide))
      (hgives _ _ (by decide) (by decide))
    have hpath : ¬Legible "author..name" := fun h =>
      absurd (FieldPath.isPlain_ofText_iff.mpr h) (by decide)
    have hdirection : ¬∃ d : Direction, d.Spelled "sideways" := by
      rintro ⟨d, hd⟩
      rw [Direction.spelled_iff] at hd
      revert hd
      cases d <;> decide
    obtain ⟨m, h, hm⟩ := hbad fun hgood => hpath hgood.1
    exact ⟨m, h, hm.path.mpr hpath, hm.direction.mpr hdirection⟩

end OrderPath

end DottedQuery
