import DottedQuery.Proofs.Query.Grammar

/-!
# Statements are unambiguous

A statement is read back (`DottedQuery.Select.read?`): from its text and its bindings the
canonical form of the query is recovered, whatever its tables, aliases and columns are called.
Two queries have one statement exactly if they have one canonical form, so a name cannot turn into
anything else (`DottedQuery.Select.statement_unambiguous`).

The induction is on the query, all its parts at once. A sub-query is shorter than the text it
stands in, so the length of a text bounds the depth to which it can be nested.
-/

namespace DottedQuery

namespace Grammar

open Reader

/-! ### What stands behind the parts -/

theorem follows_orders (os : List OrderTerm) {cs : List Char} (h : Follows [] cs) :
    Follows afterWheres (Piece.chars (orderPieces os) ++ cs) := by
  cases os with
  | nil => exact h.mono (List.nil_subset _)
  | cons o os => exact Follows.text (by decide) _ cs

theorem follows_wheres (ws : List Condition) {cs : List Char} (h : Follows afterWheres cs) :
    Follows afterJoins (Piece.chars (wherePieces ws) ++ cs) := by
  cases ws with
  | nil => exact h.mono (by decide)
  | cons c ws => exact Follows.text (by decide) _ cs

theorem follows_joins (js : List Join) {cs : List Char} (h : Follows afterJoins cs) :
    Follows afterJoin (Piece.chars (joinsPieces js) ++ cs) := by
  cases js with
  | nil => exact h.mono (by decide)
  | cons j js =>
    obtain ⟨kind, source, on⟩ := j
    cases kind with
    | inner => exact Follows.text (by decide) _ cs
    | left => exact Follows.text (by decide) _ cs

theorem follows_further (cs : List Condition) {rest : List Char} (h : Follows afterJoin rest) :
    Follows afterCondition (Piece.chars (furtherPieces cs) ++ rest) := by
  cases cs with
  | nil => exact h.mono (by decide)
  | cons c cs =>
    obtain ⟨b, p⟩ := c
    cases b with
    | and => exact Follows.text (w := " and ") (by decide) _ rest
    | or => exact Follows.text (w := " or ") (by decide) _ rest

/-- A name ends behind a predicate. -/
theorem breaks_afterCondition {cs : List Char} (h : Follows afterCondition cs) : Breaks cs :=
  h.breaks (by decide)

/-! ### The parts with conditions -/

/-- The number of characters of pieces in a statement. -/
def width (ps : List Piece) : Nat := (Piece.chars ps).length

theorem width_append (ps qs : List Piece) : width (ps ++ qs) = width ps + width qs := by
  rw [width, Piece.chars_append, List.length_append, width, width]

theorem width_text (w : String) (ps : List Piece) :
    width (.text w :: ps) = w.toList.length + width ps := by
  rw [width, Piece.chars_text, List.length_append, width]

section Parts

variable {sub : Reader Select}

/-- Conditions are read back if the first and the further ones are. -/
theorem reads_someConditions {p p' : Predicate} {cs cs' : List Condition}
    (hp : Reads (predicate sub) p.pieces p' (Follows afterCondition))
    (hcs : Reads (many (further sub)) (furtherPieces cs) cs' (Follows afterJoin)) :
    Reads (someConditions sub) (p.pieces ++ furtherPieces cs) (.and p' :: cs')
      (Follows afterJoin) := by
  have h : Reads (someConditions sub) (p.pieces ++ (furtherPieces cs ++ [])) (.and p' :: cs')
      (Follows afterJoin) := by
    refine hp.bind (hcs.bind (reads_pure _ _) fun _ h => h) fun rest h => ?_
    rw [List.append_nil]
    exact follows_further cs h
  rwa [List.append_nil] at h

/-- A condition after the first one is read back if its predicate is. -/
theorem reads_one_further (b : Combinator) {p p' : Predicate}
    (hp : Reads (predicate sub) p.pieces p' (Follows afterCondition)) :
    Reads (further sub) (.text (" " ++ b.sql ++ " ") :: p.pieces) ⟨b, p'⟩
      (Follows afterCondition) := by
  have hb : Reads (choice [(" and ", Combinator.and), (" or ", .or)])
      [.text (" " ++ b.sql ++ " ")] b Anything := by
    cases b with
    | and => exact reads_choice (by decide) (by decide) _
    | or => exact reads_choice (by decide) (by decide) _
  have h : Reads (further sub) ([.text (" " ++ b.sql ++ " ")] ++ (p.pieces ++ [])) ⟨b, p'⟩
      (Follows afterCondition) :=
    hb.bind (hp.bind (reads_pure _ _) fun _ h => h) fun _ _ => trivial
  rwa [List.append_nil] at h

/-- A joined table is read back if its conditions are. -/
theorem reads_join (kind : JoinKind) (s : Source) {on on' : List Condition}
    (hon : Reads (conditions sub) (conditionsPieces on) on' (Follows afterJoin)) :
    Reads (join sub) (Join.mk kind s on).pieces ⟨kind, s, on'⟩ (Follows afterJoin) := by
  have hkind : Reads (choice [(" inner join ", JoinKind.inner), (" left join ", .left)])
      [.text (" " ++ kind.sql ++ " ")] kind Anything := by
    cases kind with
    | inner => exact reads_choice (by decide) (by decide) _
    | left => exact reads_choice (by decide) (by decide) _
  have h : Reads (join sub) ([.text (" " ++ kind.sql ++ " ")] ++ (s.pieces ++
      ([.text " on "] ++ (conditionsPieces on ++ [])))) ⟨kind, s, on'⟩ (Follows afterJoin) :=
    hkind.bind ((reads_source s).bind ((reads_literal " on " Anything).bind
      (hon.bind (reads_pure _ _) fun _ h => h) fun _ _ => trivial)
      fun cs _ => Follows.text (by decide) _ cs) fun _ _ => trivial
  rw [List.append_nil] at h
  rw [Join.pieces, List.cons_append]
  exact h

/-- A query is read back if its joined tables and its conditions are. -/
theorem reads_select_succ {depth : Nat} (ps : List Projection) (s : Source) {js js' : List Join}
    {ws ws' : List Condition} (os : List OrderTerm)
    (hjs : Reads (many (join (select depth))) (joinsPieces js) js' (Follows afterJoins))
    (hws : Reads (wheres (select depth)) (wherePieces ws) ws' (Follows afterWheres)) :
    Reads (select (depth + 1)) (Select.mk ps s js ws os).pieces
      ⟨canonicalProjection ps, s, js', ws', os.map OrderTerm.canonical⟩ (Follows []) := by
  have horders : Reads (do let os ← orders; return Select.mk (canonicalProjection ps) s js' ws' os)
      (orderPieces os ++ [])
      ⟨canonicalProjection ps, s, js', ws', os.map OrderTerm.canonical⟩ (Follows []) :=
    (reads_orders os).bind (reads_pure _ _) fun _ h => h
  rw [List.append_nil] at horders
  have h : Reads (select (depth + 1)) ([.text "select "] ++ (projectionPieces ps ++
      ([.text " from "] ++ (s.pieces ++ (joinsPieces js ++ (wherePieces ws ++ orderPieces os))))))
      ⟨canonicalProjection ps, s, js', ws', os.map OrderTerm.canonical⟩ (Follows []) := by
    refine (reads_literal "select " Anything).bind ((reads_projections ps).bind
      ((reads_literal " from " Anything).bind ((reads_source s).bind
        (hjs.bind (hws.bind horders ?_) ?_) ?_) fun _ _ => trivial) ?_) fun _ _ => trivial
    · exact fun cs h => follows_orders os h
    · intro cs h
      rw [Piece.chars_append, List.append_assoc]
      exact follows_wheres ws (follows_orders os h)
    · intro cs h
      rw [Piece.chars_append, Piece.chars_append, List.append_assoc, List.append_assoc]
      exact (follows_joins js (follows_wheres ws (follows_orders os h))).mono (by decide)
    · exact fun cs _ => Follows.text (by decide) _ cs
  refine h.congr ?_ ?_
  · simp [Select.pieces]
  · simp [Select.pieces, Piece.values]

end Parts

mutual

/-- **A query is read back**, up to its canonical form. -/
theorem reads_select : ∀ (q : Select) (depth : Nat), width q.pieces ≤ depth →
    Reads (select depth) q.pieces q.canonical (Follows [])
  | ⟨ps, s, js, ws, os⟩, 0, h => by
    -- no query has an empty text
    rw [Select.pieces] at h
    simp only [List.cons_append, width_text] at h
    exact absurd h (by simp)
  | ⟨ps, s, js, ws, os⟩, depth + 1, h => by
    rw [Select.pieces] at h
    simp only [List.cons_append, width_text, width_append] at h
    -- the word it begins with makes a query longer than each of its parts
    have hselect : 0 < "select ".toList.length := by decide
    exact reads_select_succ ps s os (reads_joins js depth (by omega))
      (reads_wheres ws depth (by omega))

/-- Joined tables are read back. -/
theorem reads_joins : ∀ (js : List Join) (depth : Nat), width (joinsPieces js) ≤ depth →
    Reads (many (join (select depth))) (joinsPieces js) (canonicalJoins js) (Follows afterJoins)
  | [], depth, _ => reads_many_nil (refuses_choice_of_apart (by decide)).bind
  | ⟨kind, s, on⟩ :: js, depth, h => by
    rw [joinsPieces, width_append] at h
    have hon : width (conditionsPieces on) ≤ depth := by
      rw [Join.pieces, List.cons_append, width_text, width_append, width_text] at h
      omega
    refine reads_many_cons (reads_join kind s (reads_conditions on depth hon))
      (reads_joins js depth (by omega)) (fun cs h => follows_joins js h) ?_
    cases kind <;> simp [Join.pieces, JoinKind.sql]

/-- The conditions of a query are read back. -/
theorem reads_wheres : ∀ (cs : List Condition) (depth : Nat), width (wherePieces cs) ≤ depth →
    Reads (wheres (select depth)) (wherePieces cs) (canonicalConditions cs) (Follows afterWheres)
  | [], depth, _ =>
    (reads_pure _ _).orElse_right (refuses_literal_of_apart (by decide)).bind
  | ⟨b, p⟩ :: cs, depth, h => by
    rw [wherePieces, List.cons_append, width_text, width_append, Condition.pieces] at h
    have hcs := reads_someConditions (reads_predicate p depth (by omega))
      (reads_further cs depth (by omega))
    exact ((reads_literal " where " Anything).bind
      (hcs.weaken fun _ h => h.mono (by decide)) fun _ _ => trivial).orElse_left

/-- The conditions of a join are read back. -/
theorem reads_conditions : ∀ (cs : List Condition) (depth : Nat),
    width (conditionsPieces cs) ≤ depth →
    Reads (conditions (select depth)) (conditionsPieces cs) (canonicalConditions cs)
      (Follows afterJoin)
  | [], depth, _ => (reads_pure _ _).orElse_right (refuses_predicate (by decide)).bind
  | ⟨b, p⟩ :: cs, depth, h => by
    rw [conditionsPieces, width_append, Condition.pieces] at h
    exact (reads_someConditions (reads_predicate p depth (by omega))
      (reads_further cs depth (by omega))).orElse_left

/-- Conditions after the first one are read back. -/
theorem reads_further : ∀ (cs : List Condition) (depth : Nat), width (furtherPieces cs) ≤ depth →
    Reads (many (further (select depth))) (furtherPieces cs) (canonicalFurther cs)
      (Follows afterJoin)
  | [], depth, _ => reads_many_nil (refuses_choice_of_apart (by decide)).bind
  | ⟨b, p⟩ :: cs, depth, h => by
    rw [furtherPieces, List.cons_append, width_text, width_append, Condition.pieces] at h
    refine reads_many_cons (reads_one_further b (reads_predicate p depth (by omega)))
      (reads_further cs depth (by omega)) (fun rest h => follows_further cs h) ?_
    cases b <;> simp [Combinator.sql]

/-- **A predicate is read back**, up to its canonical form. -/
theorem reads_predicate : ∀ (p : Predicate) (depth : Nat), width p.pieces ≤ depth →
    Reads (predicate (select depth)) p.pieces p.canonical (Follows afterCondition)
  | .compare c op v, depth, _ =>
    reads_comparison (reads_compare c op v _) fun cs _ => breaks_operator op _ cs
  | .inSet c negated [], depth, _ => reads_inEmpty negated
  | .inSet c negated (v :: vs), depth, _ => by
    refine reads_comparison (reads_inSet c negated v vs _) fun cs _ => ?_
    cases negated with
    | false => exact breaks_text (by decide) _ cs
    | true => exact breaks_text (by decide) _ cs
  | .columns l op r, depth, _ =>
    reads_comparison ((reads_columns l op r).weaken fun _ => breaks_afterCondition)
      fun cs _ => breaks_operator op _ cs
  | .exists sub, depth, h => by
    rw [Predicate.pieces] at h ⊢
    rw [List.cons_append, width_text, width_append] at h
    exact reads_exists (reads_select sub depth (by omega))

end

end Grammar

namespace Select

/-! ### Reading a statement -/

/-- **The query of a statement**, if it is one. -/
def read? (s : Statement) : Option Select :=
  match Grammar.select s.text.toList.length ⟨s.text.toList, s.bindings⟩ with
  | some (q, ⟨[], []⟩) => some q
  | _ => none

/-- **A statement is read back**, up to the canonical form of its query. -/
theorem read?_statement (q : Select) : read? q.statement = some q.canonical := by
  have h := Grammar.reads_select q (Piece.chars q.pieces).length (Nat.le_refl _) [] []
    (Or.inl rfl)
  rw [List.append_nil, List.append_nil] at h
  rw [read?, toList_text_statement]
  change (match Grammar.select (Piece.chars q.pieces).length
    ⟨Piece.chars q.pieces, Piece.values q.pieces⟩ with
    | some (q, ⟨[], []⟩) => some q
    | _ => none) = _
  rw [h]

/-- **Statements are unambiguous**: each is read back up to the canonical form of its query, and
two queries have one statement exactly if they have one canonical form. -/
theorem statement_unambiguous :
    (∀ q : Select, read? q.statement = some q.canonical) ∧
      ∀ q q' : Select, q.statement = q'.statement ↔ q.canonical = q'.canonical := by
  refine ⟨read?_statement, fun q q' => ⟨fun h => ?_, fun h => ?_⟩⟩
  · have hread := read?_statement q
    rw [h, read?_statement q'] at hread
    exact (Option.some.inj hread).symm
  · rw [← q.statement_canonical, h, q'.statement_canonical]

end Select

end DottedQuery
