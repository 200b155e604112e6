import DottedQuery.Proofs.Query.Reader

/-!
# Placeholders and bindings

A statement has a `?` for every value, and lists the values beside the text. A name may hold a `?`
too, but then it stands between double quotes. This file reads the *text* of a statement, character
by character, the way a database driver does: it knows where quotes begin and end and nothing else
of the query (`DottedQuery.Text.marked`).

What such a reader finds is settled by `DottedQuery.Select.statement_placeholders`:

* it counts as many **placeholders** as there are bindings;
* with the literal of each binding put in the stead of its placeholder, from left to right, the
  text becomes the text in line;
* the bindings are the values that the predicates of the query hold, in the order in which the
  predicates are written (`DottedQuery.Select.valueNodes`).

The text is made of pieces, and only a slot shows a placeholder: fixed texts have neither quotes
nor question marks, and a name closes every quote that it opens.
-/

namespace DottedQuery

namespace Text

/-! ### Placeholders in a text -/

/-- Whether the end of a text stands between double quotes, if its beginning does or does not. A
quote that is written twice closes a name and opens it again, with nothing in between. -/
def quotedAfter (quoted : Bool) (cs : List Char) : Bool :=
  cs.foldl (fun quoted c => quoted != (c = '"')) quoted

/-- The characters of a text, each with whether it is a **placeholder**: a `?` that does not stand
between double quotes. -/
def marked : Bool → List Char → List (Char × Bool)
  | _, [] => []
  | quoted, c :: cs => (c, !quoted && c = '?') :: marked (quoted != (c = '"')) cs

/-- The number of placeholders of a text. -/
def placeholders (s : String) : Nat := (marked false s.toList).countP Prod.snd

/-- Characters with texts in the stead of the marked ones, one text after another. -/
def fillMarks : List (Char × Bool) → List String → List Char
  | (_, true) :: cs, w :: ws => w.toList ++ fillMarks cs ws
  | (c, _) :: cs, ws => c :: fillMarks cs ws
  | [], _ => []

/-- A text with other texts in the stead of its placeholders, from left to right. -/
def fill (s : String) (ws : List String) : String :=
  String.ofList (fillMarks (marked false s.toList) ws)

/-- A text is read on from where the one before it ends. -/
theorem marked_append (quoted : Bool) (cs ds : List Char) :
    marked quoted (cs ++ ds) = marked quoted cs ++ marked (quotedAfter quoted cs) ds := by
  induction cs generalizing quoted with
  | nil => rfl
  | cons c cs ih =>
    rw [List.cons_append, marked, ih]
    rfl

/-- Nothing is put into a text without marks. -/
theorem fillMarks_unmarked (cs : List Char) (ds : List (Char × Bool)) (ws : List String) :
    fillMarks (cs.map (·, false) ++ ds) ws = cs ++ fillMarks ds ws := by
  induction cs with
  | nil => rfl
  | cons c cs ih => simp [fillMarks, ih]

/-! ### Quiet texts -/

/-- A text without placeholders that closes the quotes it opens. -/
def Quiet (cs : List Char) : Prop :=
  marked false cs = cs.map (·, false) ∧ quotedAfter false cs = false

/-- A text with neither quotes nor question marks is quiet. -/
theorem quiet_of_forall {cs : List Char} (h : ∀ c ∈ cs, c ≠ '"' ∧ c ≠ '?') : Quiet cs := by
  induction cs with
  | nil => exact ⟨rfl, rfl⟩
  | cons c cs ih =>
    obtain ⟨hquote, hmark⟩ := h c List.mem_cons_self
    obtain ⟨hmarked, hafter⟩ := ih fun d hd => h d (List.mem_cons_of_mem _ hd)
    have hstay : (false != decide (c = '"')) = false := by simp [hquote]
    constructor
    · rw [marked, hstay, hmarked]
      simp [hmark]
    · rw [quotedAfter, List.foldl_cons, hstay]
      exact hafter

/-- Between quotes, what is doubled has no placeholders and does not close them. -/
theorem marked_double (cs : List Char) :
    marked true (double '"' cs) = (double '"' cs).map (·, false) ∧
      quotedAfter true (double '"' cs) = true := by
  induction cs with
  | nil => exact ⟨rfl, rfl⟩
  | cons c cs ih =>
    obtain ⟨hmarked, hafter⟩ := ih
    rw [double]
    split
    · -- the first of two quotes closes the name and the second opens it again
      constructor
      · rw [marked, marked]
        simpa using hmarked
      · simpa [quotedAfter] using hafter
    · next hc =>
      constructor
      · rw [marked]
        simpa [hc] using hmarked
      · simpa [quotedAfter, hc] using hafter

/-- **A name is quiet**, whatever it is. -/
theorem quiet_quoteName (s : String) : Quiet (quoteName s).toList := by
  cases hplain : isPlain s with
  | false =>
    obtain ⟨hmarked, hafter⟩ := marked_double s.toList
    have hfirst : (false != decide ('"' = '"')) = true := by decide
    rw [quoteName_of_not_isPlain hplain, quoted, String.toList_ofList]
    constructor
    · rw [marked, hfirst, marked_append, hmarked, hafter, List.map_cons, List.map_append]
      rfl
    · rw [quotedAfter, List.foldl_cons, hfirst, List.foldl_append]
      rw [quotedAfter] at hafter
      rw [hafter]
      rfl
  | true =>
    rw [quoteName_of_isPlain hplain]
    refine quiet_of_forall fun c hc => ?_
    have hpart : isNamePart c = true := by
      unfold isPlain isPlainChars at hplain
      cases hs : s.toList with
      | nil => simp [hs] at hc
      | cons d ds =>
        rw [hs, Bool.and_eq_true] at hplain
        rw [hs] at hc
        rcases List.mem_cons.mp hc with rfl | hc
        · have hstart := hplain.1
          simp only [isNameStart, isNamePart, Bool.or_eq_true, Char.isAlphanum] at hstart ⊢
          rcases hstart with h | h
          · exact Or.inl (Or.inl h)
          · exact Or.inr h
        · exact List.all_eq_true.mp hplain.2 c hc
    constructor
    · rintro rfl
      revert hpart
      decide
    · rintro rfl
      revert hpart
      decide

end Text

/-! ### Pieces that carry values -/

namespace Piece

/-- A fixed text with neither quotes nor question marks; nothing is asked of other pieces. -/
def isClean : Piece → Bool
  | text s => s.toList.all fun c => c ≠ '"' && c ≠ '?'
  | _ => true

/-- The characters of a piece in a statement, with the placeholder of a slot marked. -/
def marks : Piece → List (Char × Bool)
  | slot _ => [('?', true)]
  | p => p.placeholder.toList.map (·, false)

/-- **Pieces carry values**: their fixed texts are clean, and their slots hold these values, in this
order. -/
structure Carry (ps : List Piece) (vs : List Value) : Prop where
  /-- The fixed texts are clean. -/
  clean : ∀ p ∈ ps, p.isClean = true
  /-- The slots hold the values. -/
  holds : values ps = vs

theorem Carry.append {ps qs : List Piece} {vs ws : List Value} (h : Carry ps vs)
    (h' : Carry qs ws) : Carry (ps ++ qs) (vs ++ ws) where
  clean p hp := (List.mem_append.mp hp).elim (h.clean p) (h'.clean p)
  holds := by rw [values_append, h.holds, h'.holds]

theorem Carry.text {ps : List Piece} {vs : List Value} {w : String}
    (hw : (Piece.text w).isClean = true) (h : Carry ps vs) : Carry (.text w :: ps) vs where
  clean p hp := (List.mem_cons.mp hp).elim (fun he => he ▸ hw) (h.clean p)
  holds := h.holds

theorem carry_nil : Carry [] [] := ⟨fun _ hp => absurd hp List.not_mem_nil, rfl⟩

/-- A clean piece shows its marks and closes the quotes it opens. -/
theorem marked_placeholder {p : Piece} (h : p.isClean = true) :
    Text.marked false p.placeholder.toList = p.marks ∧
      Text.quotedAfter false p.placeholder.toList = false := by
  cases p with
  | text s =>
    refine Text.quiet_of_forall fun c hc => ?_
    simpa using List.all_eq_true.mp h c hc
  | name s => exact Text.quiet_quoteName s
  | slot v =>
    change Text.marked false "?".toList = [('?', true)] ∧ Text.quotedAfter false "?".toList = false
    decide

/-- **The marks of a text are those of its pieces.** -/
theorem Carry.marked {ps : List Piece} {vs : List Value} (h : Carry ps vs) :
    Text.marked false (chars ps) = ps.flatMap marks := by
  have hclean := h.clean
  clear h
  induction ps with
  | nil => rfl
  | cons p ps ih =>
    obtain ⟨hmarks, hafter⟩ := marked_placeholder (hclean p List.mem_cons_self)
    have hchars : chars (p :: ps) = p.placeholder.toList ++ chars ps := rfl
    rw [hchars, Text.marked_append, hmarks, hafter,
      ih fun q hq => hclean q (List.mem_cons_of_mem _ hq), List.flatMap_cons]

/-- There are as many marks as slots. -/
theorem countP_marks (ps : List Piece) :
    (ps.flatMap marks).countP Prod.snd = (values ps).length := by
  induction ps with
  | nil => rfl
  | cons p ps ih =>
    have hcons : values (p :: ps) = p.value?.toList ++ values ps := by
      cases p <;> rfl
    have hhead : p.marks.countP Prod.snd = p.value?.toList.length := by
      cases p <;> simp [marks, value?, List.countP_map]
    rw [List.flatMap_cons, List.countP_append, ih, hhead, hcons, List.length_append]

/-- **Pieces show as many placeholders as they carry values.** -/
theorem Carry.placeholders {ps : List Piece} {vs : List Value} (h : Carry ps vs) :
    Text.placeholders (String.join (ps.map placeholder)) = vs.length := by
  have htext : (String.join (ps.map placeholder)).toList = chars ps := by
    rw [String.toList_join, List.flatMap_map]
    rfl
  rw [Text.placeholders, htext, h.marked, countP_marks, h.holds]

/-- With literals in the stead of the marks, the pieces stand there in line. -/
theorem fillMarks_marks (ps : List Piece) :
    Text.fillMarks (ps.flatMap marks) ((values ps).map Value.literal) =
      ps.flatMap fun p => p.inLine.toList := by
  induction ps with
  | nil => rfl
  | cons p ps ih =>
    cases p with
    | text s | name s =>
      rw [List.flatMap_cons, List.flatMap_cons, ← ih]
      exact Text.fillMarks_unmarked _ _ _
    | slot v =>
      rw [List.flatMap_cons, List.flatMap_cons, ← ih]
      rfl

end Piece

/-! ### The values of a query -/

mutual

/-- **The predicates of a query that hold values**, in the order of the text: those of joined
tables, then those of the conditions of the query; those of a sub-query stand in its place. -/
def Select.valueNodes : Select → List Predicate
  | ⟨_, _, joins, wheres, _⟩ => valueNodesOfJoins joins ++ valueNodesOfConditions wheres

/-- The predicates of joined tables that hold values. -/
def valueNodesOfJoins : List Join → List Predicate
  | [] => []
  | j :: js => j.valueNodes ++ valueNodesOfJoins js

/-- The predicates of a joined table that hold values. -/
def Join.valueNodes : Join → List Predicate
  | ⟨_, _, on⟩ => valueNodesOfConditions on

/-- The predicates of conditions that hold values. -/
def valueNodesOfConditions : List Condition → List Predicate
  | [] => []
  | c :: cs => c.valueNodes ++ valueNodesOfConditions cs

/-- The predicates of a condition that hold values. -/
def Condition.valueNodes : Condition → List Predicate
  | ⟨_, p⟩ => p.valueNodes

/-- The predicates within a predicate that hold values. -/
def Predicate.valueNodes : Predicate → List Predicate
  | .compare column op value => [.compare column op value]
  | .inSet column negated values => [.inSet column negated values]
  | .columns .. => []
  | .exists sub => sub.valueNodes

end

/-- The values that a predicate holds itself. -/
def Predicate.ownValues : Predicate → List Value
  | .compare _ _ value => [value]
  | .inSet _ _ values => values
  | .columns .. | .exists _ => []

open Piece (Carry carry_nil)

/-! ### What the parts of a query carry -/

theorem Column.carry (c : Column) : Carry c.pieces [] :=
  ⟨by simp [pieces, Piece.isClean], rfl⟩

theorem Source.carry (s : Source) : Carry s.pieces [] := by
  obtain ⟨table, label⟩ := s
  cases label with
  | none => exact ⟨by simp [pieces, Piece.isClean], rfl⟩
  | some label => exact ⟨by simp [pieces, Piece.isClean], rfl⟩

/-- Lists of pieces with a clean text between them carry what they carry. -/
theorem Piece.carry_separated (sep : String) (hsep : (Piece.text sep).isClean = true)
    {α : Type} {f : α → List Piece} {g : α → List Value} (as : List α)
    (h : ∀ a ∈ as, Carry (f a) (g a)) : Carry (separated sep (as.map f)) (as.flatMap g) := by
  induction as with
  | nil => exact carry_nil
  | cons a as ih =>
    have hhead := h a List.mem_cons_self
    have ih := ih fun b hb => h b (List.mem_cons_of_mem _ hb)
    cases as with
    | nil => simpa [separated] using hhead
    | cons b bs =>
      rw [List.map_cons, List.flatMap_cons]
      exact hhead.append (ih.text hsep)

theorem carry_projectionPieces (ps : List Projection) : Carry (projectionPieces ps) [] := by
  unfold projectionPieces
  split
  · exact ⟨by simp [Piece.isClean], rfl⟩
  · have h := Piece.carry_separated ", " (by decide) (g := fun _ => []) ps
      fun (p : Projection) _ => show Carry p.pieces [] by
        cases p <;> exact ⟨by simp [Projection.pieces, Piece.isClean], rfl⟩
    rwa [List.flatMap_eq_nil_iff.mpr fun _ _ => rfl] at h

theorem carry_orderPieces (os : List OrderTerm) : Carry (orderPieces os) [] := by
  unfold orderPieces
  split
  · exact carry_nil
  · have h := Piece.carry_separated ", " (by decide) (g := fun _ => []) os
      fun (o : OrderTerm) _ => show Carry o.pieces [] by
        refine (o.column.carry).append (Carry.text ?_ carry_nil)
        cases o.direction <;> decide
    rw [List.flatMap_eq_nil_iff.mpr fun _ _ => rfl] at h
    exact h.text (by decide)

theorem carry_setPieces (c : Column) (negated : Bool) (vs : List Value) :
    Carry (setPieces c negated vs) vs := by
  have hslots := Piece.carry_separated ", " (by decide)
    (f := fun v => [Piece.slot v]) (g := fun v => [v]) vs
    fun v _ => ⟨by simp [Piece.isClean], rfl⟩
  have hopen : (Piece.text (if negated then " not in (" else " in (")).isClean = true := by
    cases negated <;> decide
  have hclose : Carry [.text ")"] [] := carry_nil.text (by decide)
  have h := c.carry.append ((hslots.append hclose).text hopen)
  simpa [setPieces] using h

mutual

/-- **A query carries the values of its predicates.** -/
theorem Select.carry : ∀ q : Select, Carry q.pieces (q.valueNodes.flatMap Predicate.ownValues)
  | ⟨projection, source, joins, wheres, orderBy⟩ => by
    have hfrom : Carry (.text " from " :: source.pieces) [] := source.carry.text (by decide)
    have h := ((((carry_projectionPieces projection).append hfrom).append
      (carry_joinsPieces joins)).append (carry_wherePieces wheres)).append
      (carry_orderPieces orderBy)
    rw [Select.pieces, Select.valueNodes, List.flatMap_append]
    exact Carry.text (by decide) (by simpa using h)

theorem carry_joinsPieces : ∀ js : List Join,
    Carry (joinsPieces js) ((valueNodesOfJoins js).flatMap Predicate.ownValues)
  | [] => carry_nil
  | ⟨kind, source, on⟩ :: js => by
    have hkind : (Piece.text (" " ++ kind.sql ++ " ")).isClean = true := by
      cases kind <;> decide
    have hon : Carry (.text " on " :: conditionsPieces on)
        ((valueNodesOfConditions on).flatMap Predicate.ownValues) :=
      (carry_conditionsPieces on).text (by decide)
    have h := ((source.carry.append hon).text hkind).append (carry_joinsPieces js)
    rw [joinsPieces, Join.pieces, valueNodesOfJoins, Join.valueNodes, List.flatMap_append]
    simpa using h

theorem carry_wherePieces : ∀ cs : List Condition,
    Carry (wherePieces cs) ((valueNodesOfConditions cs).flatMap Predicate.ownValues)
  | [] => carry_nil
  | ⟨b, p⟩ :: cs => by
    rw [wherePieces, Condition.pieces, valueNodesOfConditions, Condition.valueNodes,
      List.flatMap_append]
    exact (p.carry.append (carry_furtherPieces cs)).text (by decide)

theorem carry_conditionsPieces : ∀ cs : List Condition,
    Carry (conditionsPieces cs) ((valueNodesOfConditions cs).flatMap Predicate.ownValues)
  | [] => carry_nil
  | ⟨b, p⟩ :: cs => by
    rw [conditionsPieces, Condition.pieces, valueNodesOfConditions, Condition.valueNodes,
      List.flatMap_append]
    exact p.carry.append (carry_furtherPieces cs)

theorem carry_furtherPieces : ∀ cs : List Condition,
    Carry (furtherPieces cs) ((valueNodesOfConditions cs).flatMap Predicate.ownValues)
  | [] => carry_nil
  | ⟨b, p⟩ :: cs => by
    have hb : (Piece.text (" " ++ b.sql ++ " ")).isClean = true := by
      cases b <;> decide
    rw [furtherPieces, Condition.pieces, valueNodesOfConditions, Condition.valueNodes,
      List.flatMap_append]
    exact (p.carry.append (carry_furtherPieces cs)).text hb

theorem Predicate.carry : ∀ p : Predicate,
    Carry p.pieces (p.valueNodes.flatMap Predicate.ownValues)
  | .compare column op value => by
    have hop : (Piece.text (" " ++ op.sql ++ " ")).isClean = true := by
      cases op <;> decide
    exact column.carry.append (Carry.text hop ⟨by simp [Piece.isClean], rfl⟩)
  | .inSet column negated values => by
    rw [Predicate.pieces, Predicate.valueNodes, List.flatMap_singleton]
    cases values with
    | nil => exact Carry.text (by cases negated <;> decide) carry_nil
    | cons v vs => exact carry_setPieces column negated (v :: vs)
  | .columns left op right => by
    have hop : (Piece.text (" " ++ op.sql ++ " ")).isClean = true := by
      cases op <;> decide
    exact left.carry.append (Carry.text hop right.carry)
  | .exists sub => by
    have hclose : Carry [.text ")"] [] := carry_nil.text (by decide)
    have h := sub.carry.append hclose
    rw [List.append_nil] at h
    rw [Predicate.pieces, Predicate.valueNodes]
    exact h.text (by decide)

end

namespace Select

/-- The characters of the text in line are those of its pieces. -/
theorem toList_inlineText (q : Select) :
    q.inlineText.toList = q.pieces.flatMap fun p => p.inLine.toList := by
  rw [inlineText, String.toList_join, List.flatMap_map]

/-- **Placeholders and bindings line up**, whatever the names and the values of a query are. The
text of its statement has as many placeholders as there are bindings; with the literals of the
bindings in their stead, from left to right, it is the text in line; and the bindings are the
values of the predicates of the query, in the order of the text. -/
theorem statement_placeholders (q : Select) :
    Text.placeholders q.statement.text = q.statement.bindings.length ∧
      Text.fill q.statement.text (q.statement.bindings.map Value.literal) = q.inlineText ∧
      q.statement.bindings = q.valueNodes.flatMap Predicate.ownValues := by
  have hmarks : Text.marked false q.statement.text.toList = q.pieces.flatMap Piece.marks := by
    rw [q.toList_text_statement, q.carry.marked]
  refine ⟨?_, ?_, q.carry.holds⟩
  · rw [Text.placeholders, hmarks, Piece.countP_marks]
    rfl
  · rw [Text.fill, hmarks]
    refine String.toList_inj.mp ?_
    rw [String.toList_ofList, q.toList_inlineText]
    exact Piece.fillMarks_marks q.pieces

/-- A column whose name holds quotes and a `?` takes no part in the counting. -/
example : Text.placeholders "select * from t where t.\"a\"\"?\" = ? and t.\"?\" in (?, ?)" = 3 := by
  decide

end Select

end DottedQuery
