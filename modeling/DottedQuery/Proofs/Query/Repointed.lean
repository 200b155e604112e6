import DottedQuery.Query.Repoint
import Mathlib.Data.List.Forall2

/-!
# What pointing columns elsewhere changes

Two queries are *alike* (`DottedQuery.Select.Alike`) if one is the other with its own columns
exchanged: those in its conditions and in the conditions of its joins, each for a related one.
Sub-queries are not looked into, so they are the same in both, and so is everything that is no
column – the table that is read, what is returned, the joined tables, the order, and of each
condition the combinator, the predicate, the operator and the values.

What becomes of a column is said by `DottedQuery.Repointing.Points`, one constructor for each of
the four cases:

| scope | table                       | what the column is qualified by |
|-------|-----------------------------|---------------------------------|
| named | the table of the repointing | its label                       |
| named | any other                   | the same table                  |
| outer | the prior table             | the prior label                 |
| outer | any other                   | the same table                  |

The two scopes never meet, so the table and the prior table may be one, and either label may be
one of the tables. The repointed query is the one query that is alike in this sense
(`DottedQuery.Repointing.select_exact`). Nothing more comes of a second time: a column that has
been pointed somewhere is pointed there again, also if its new qualifier is the name of a table.
-/

namespace DottedQuery

/-! ### Queries that are alike -/

/-- **Predicates that are alike**: their columns are related, and the rest is the same. -/
inductive Predicate.Alike (R : Column → Column → Prop) : Predicate → Predicate → Prop
  /-- The same comparison of related columns. -/
  | compare {c c' : Column} (h : R c c') (op : Operator) (value : Value) :
    Alike R (.compare c op value) (.compare c' op value)
  /-- The membership of related columns in the same set. -/
  | inSet {c c' : Column} (h : R c c') (negated : Bool) (values : List Value) :
    Alike R (.inSet c negated values) (.inSet c' negated values)
  /-- Comparisons of two columns, related on either side. -/
  | columns {l l' r r' : Column} (left : R l l') (op : Operator) (right : R r r') :
    Alike R (.columns l op r) (.columns l' op r')
  /-- The same sub-query. -/
  | exists (sub : Select) : Alike R (.exists sub) (.exists sub)

/-- Conditions that are alike. -/
structure Condition.Alike (R : Column → Column → Prop) (c c' : Condition) : Prop where
  /-- They are combined alike. -/
  combinator : c'.combinator = c.combinator
  /-- Their predicates are alike. -/
  predicate : c.predicate.Alike R c'.predicate

/-- Joined tables that are alike. -/
structure Join.Alike (R : Column → Column → Prop) (j j' : Join) : Prop where
  /-- They are joined alike. -/
  kind : j'.kind = j.kind
  /-- The tables are the same. -/
  source : j'.source = j.source
  /-- The conditions are alike, one by one. -/
  on : List.Forall₂ (Condition.Alike R) j.on j'.on

/-- **Queries that are alike**: the columns in their own conditions and in those of their joins are
related, and the rest is the same. -/
structure Select.Alike (R : Column → Column → Prop) (q q' : Select) : Prop where
  /-- The same is returned. -/
  projection : q'.projection = q.projection
  /-- The same table is read. -/
  source : q'.source = q.source
  /-- The joined tables are alike, one by one. -/
  joins : List.Forall₂ (Join.Alike R) q.joins q'.joins
  /-- The conditions are alike, one by one. -/
  wheres : List.Forall₂ (Condition.Alike R) q.wheres q'.wheres
  /-- The order is the same. -/
  orderBy : q'.orderBy = q.orderBy

section

variable {R S : Column → Column → Prop}

/-! ### Columns related in another way -/

theorem Predicate.Alike.mono (hRS : ∀ c c', R c c' → S c c') {p p' : Predicate}
    (h : p.Alike R p') : p.Alike S p' := by
  cases h with
  | compare h op value => exact .compare (hRS _ _ h) op value
  | inSet h negated values => exact .inSet (hRS _ _ h) negated values
  | columns left op right => exact .columns (hRS _ _ left) op (hRS _ _ right)
  | «exists» sub => exact .exists sub

theorem Condition.Alike.mono (hRS : ∀ c c', R c c' → S c c') {c c' : Condition}
    (h : c.Alike R c') : c.Alike S c' :=
  ⟨h.combinator, h.predicate.mono hRS⟩

theorem Join.Alike.mono (hRS : ∀ c c', R c c' → S c c') {j j' : Join} (h : j.Alike R j') :
    j.Alike S j' :=
  ⟨h.kind, h.source, h.on.imp fun _ _ hc => hc.mono hRS⟩

/-- Queries that are alike are so for every weaker relation of columns. -/
theorem Select.Alike.mono (hRS : ∀ c c', R c c' → S c c') {q q' : Select} (h : q.Alike R q') :
    q.Alike S q' :=
  ⟨h.projection, h.source, h.joins.imp fun _ _ hj => hj.mono hRS,
    h.wheres.imp fun _ _ hc => hc.mono hRS, h.orderBy⟩

/-! ### A query beside itself -/

/-- What stands second in a list of pairs stands beside itself. -/
theorem forall₂_self {α : Type} {P Q : α → α → Prop} (hPQ : ∀ a b, P a b → Q b b) {as bs : List α}
    (h : List.Forall₂ P as bs) : List.Forall₂ Q bs bs := by
  induction h with
  | nil => exact .nil
  | cons hab _ ih => exact .cons (hPQ _ _ hab) ih

theorem Predicate.Alike.self (hR : ∀ c c', R c c' → R c' c') {p p' : Predicate}
    (h : p.Alike R p') : p'.Alike R p' := by
  cases h with
  | compare h op value => exact .compare (hR _ _ h) op value
  | inSet h negated values => exact .inSet (hR _ _ h) negated values
  | columns left op right => exact .columns (hR _ _ left) op (hR _ _ right)
  | «exists» sub => exact .exists sub

theorem Condition.Alike.self (hR : ∀ c c', R c c' → R c' c') {c c' : Condition}
    (h : c.Alike R c') : c'.Alike R c' :=
  ⟨rfl, h.predicate.self hR⟩

theorem Join.Alike.self (hR : ∀ c c', R c c' → R c' c') {j j' : Join} (h : j.Alike R j') :
    j'.Alike R j' :=
  ⟨rfl, rfl, forall₂_self (fun _ _ hc => hc.self hR) h.on⟩

/-- If columns are related to themselves once another one is related to them, the second of two
queries that are alike is alike to itself. -/
theorem Select.Alike.self (hR : ∀ c c', R c c' → R c' c') {q q' : Select} (h : q.Alike R q') :
    q'.Alike R q' :=
  ⟨rfl, rfl, forall₂_self (fun _ _ hj => hj.self hR) h.joins,
    forall₂_self (fun _ _ hc => hc.self hR) h.wheres, rfl⟩

end

namespace Repointing

variable (r : Repointing)

/-! ### What becomes of a column -/

/-- **What becomes of a column.** -/
inductive Points : Column → Column → Prop
  /-- A column of the table is qualified by the label. -/
  | own (name : String) : Points (.named r.table name) (.named r.label name)
  /-- A column of another table of the query stays. -/
  | other {table : String} (h : table ≠ r.table) (name : String) :
    Points (.named table name) (.named table name)
  /-- A column of the prior table is qualified by the prior label. -/
  | prior {table label : String} (h : r.prior = some (table, label)) (name : String) :
    Points (.outer table name) (.outer label name)
  /-- A column of another table around the query stays. -/
  | around {table : String} (h : ∀ label, r.prior ≠ some (table, label)) (name : String) :
    Points (.outer table name) (.outer table name)

variable {r}

theorem column_named (table name : String) :
    r.column (.named table name) = .named (if table = r.table then r.label else table) name := rfl

theorem column_outer_of_some {prior label : String} (h : r.prior = some (prior, label))
    (table name : String) :
    r.column (.outer table name) = .outer (if table = prior then label else table) name := by
  simp only [column, qualifier, Column.outer, h]

theorem column_outer_of_none (h : r.prior = none) (table name : String) :
    r.column (.outer table name) = .outer table name := by
  simp only [column, qualifier, Column.outer, h]

theorem points_column (c : Column) : r.Points c (r.column c) := by
  obtain ⟨scope, table, name⟩ := c
  cases scope with
  | named =>
    change r.Points (.named table name) (r.column (.named table name))
    rw [column_named]
    split
    · next h => exact h ▸ .own name
    · next h => exact .other h name
  | outer =>
    change r.Points (.outer table name) (r.column (.outer table name))
    rcases hprior : r.prior with _ | ⟨prior, label⟩
    · rw [column_outer_of_none hprior]
      exact .around (by simp [hprior]) name
    · rw [column_outer_of_some hprior]
      split
      · next h => exact h ▸ .prior hprior name
      · next h => exact .around (by simp [hprior, Ne.symm h]) name

/-- A column is pointed at one place only. -/
theorem Points.eq_column {c c' : Column} (h : r.Points c c') : c' = r.column c := by
  cases h with
  | own name => rw [column_named, if_pos rfl]
  | other h name => rw [column_named, if_neg h]
  | prior h name => rw [column_outer_of_some h, if_pos rfl]
  | @around table h name =>
    rcases hprior : r.prior with _ | ⟨prior, label⟩
    · rw [column_outer_of_none hprior]
    · have hother : table ≠ prior := by
        rintro rfl
        exact h label hprior
      rw [column_outer_of_some hprior, if_neg hother]

/-- **A column that has been pointed somewhere stays there**, whatever names coincide. -/
theorem Points.self {c c' : Column} (h : r.Points c c') : r.Points c' c' := by
  cases h with
  | own name =>
    by_cases h : r.label = r.table
    · have hown := Points.own (r := r) name
      rwa [← h] at hown
    · exact .other h name
  | other h name => exact .other h name
  | @prior table label h name =>
    by_cases hlabel : label = table
    · have hprior := Points.prior h name
      rwa [← hlabel] at hprior
    · refine .around (fun l hl => hlabel ?_) name
      exact congrArg Prod.fst (Option.some.inj (hl.symm.trans h))
  | around h name => exact .around h name

/-- The scope and the name of a column stay. -/
theorem Points.kept {c c' : Column} (h : r.Points c c') : c'.scope = c.scope ∧ c'.name = c.name := by
  cases h <;> exact ⟨rfl, rfl⟩

/-- Without a prior table, the columns of the query around stay. -/
theorem Points.eq_of_outer (hprior : r.prior = none) {c c' : Column} (h : r.Points c c')
    (hscope : c.scope = .outer) : c' = c := by
  cases h with
  | own | other => exact absurd hscope Scope.noConfusion
  | prior h => simp [hprior] at h
  | around => rfl

/-! ### What becomes of a query -/

/-- Lists are paired by what is a function exactly if one is the other under this function. -/
theorem forall₂_iff_eq_map {α : Type} {P : α → α → Prop} {f : α → α}
    (hf : ∀ a b, P a b ↔ b = f a) {as bs : List α} : List.Forall₂ P as bs ↔ bs = as.map f := by
  induction as generalizing bs with
  | nil => simp
  | cons a as ih => simp [List.forall₂_cons_left_iff, hf, ih]

theorem alike_predicate_iff {p p' : Predicate} : p.Alike r.Points p' ↔ p' = r.predicate p := by
  constructor
  · intro h
    cases h with
    | compare h op value => rw [predicate, h.eq_column]
    | inSet h negated values => rw [predicate, h.eq_column]
    | columns left op right => rw [predicate, left.eq_column, right.eq_column]
    | «exists» sub => rfl
  · rintro rfl
    cases p with
    | compare c op value => exact .compare (points_column c) op value
    | inSet c negated values => exact .inSet (points_column c) negated values
    | columns left op right => exact .columns (points_column left) op (points_column right)
    | «exists» sub => exact .exists sub

theorem alike_condition_iff (c c' : Condition) : c.Alike r.Points c' ↔ c' = r.condition c := by
  obtain ⟨b, p⟩ := c
  obtain ⟨b', p'⟩ := c'
  constructor
  · rintro ⟨rfl, hp⟩
    exact congrArg (Condition.mk b') (alike_predicate_iff.mp hp)
  · intro h
    obtain ⟨rfl, hp⟩ := Condition.mk.inj h
    exact ⟨rfl, alike_predicate_iff.mpr hp⟩

theorem alike_join_iff (j j' : Join) : j.Alike r.Points j' ↔ j' = r.join j := by
  obtain ⟨kind, source, on⟩ := j
  obtain ⟨kind', source', on'⟩ := j'
  constructor
  · rintro ⟨rfl, rfl, hon⟩
    exact congrArg (Join.mk kind' source') ((forall₂_iff_eq_map alike_condition_iff).mp hon)
  · intro h
    obtain ⟨rfl, rfl, hon⟩ := Join.mk.inj h
    exact ⟨rfl, rfl, (forall₂_iff_eq_map alike_condition_iff).mpr hon⟩

/-- **The repointed query is the one that is alike.** -/
theorem alike_iff {q q' : Select} : q.Alike r.Points q' ↔ q' = r.select q := by
  obtain ⟨projection, source, joins, wheres, orderBy⟩ := q
  obtain ⟨projection', source', joins', wheres', orderBy'⟩ := q'
  constructor
  · rintro ⟨rfl, rfl, hjoins, hwheres, rfl⟩
    have hjoins : joins' = joins.map r.join := (forall₂_iff_eq_map alike_join_iff).mp hjoins
    have hwheres : wheres' = wheres.map r.condition :=
      (forall₂_iff_eq_map alike_condition_iff).mp hwheres
    rw [hjoins, hwheres]
    rfl
  · intro h
    obtain ⟨rfl, rfl, hjoins, hwheres, rfl⟩ := Select.mk.inj h
    exact ⟨rfl, rfl, (forall₂_iff_eq_map alike_join_iff).mpr hjoins,
      (forall₂_iff_eq_map alike_condition_iff).mpr hwheres, rfl⟩

/-- **A query is pointed elsewhere in exactly the columns that are meant.** The repointed query is
the one that is alike, with every column of the conditions and of the joins pointed where
`DottedQuery.Repointing.Points` says. Scopes and names of columns are kept in any case, and without
a prior table so are the columns of the query around. Pointing twice is pointing once. -/
theorem select_exact (r : Repointing) (q : Select) :
    (∀ q', q.Alike r.Points q' ↔ q' = r.select q) ∧
    q.Alike (fun c c' => c'.scope = c.scope ∧ c'.name = c.name) (r.select q) ∧
    (r.prior = none → q.Alike (fun c c' => c.scope = .outer → c' = c) (r.select q)) ∧
    r.select (r.select q) = r.select q := by
  have halike : q.Alike r.Points (r.select q) := alike_iff.mpr rfl
  refine ⟨fun q' => alike_iff, halike.mono fun _ _ h => h.kept, fun hprior => ?_, ?_⟩
  · exact halike.mono fun _ _ h => h.eq_of_outer hprior
  · exact (alike_iff.mp (halike.self fun _ _ h => h.self)).symm

/-- The theorem at the managers of users, where a table is related to itself: the two sides of the
key are told apart by their scopes. -/
theorem select_exact_managers :
    let r : Repointing := ⟨"users", "wherehas_0", none⟩
    let q : Select := ⟨[], ⟨"users", some "wherehas_0"⟩, [],
      [.and (.columnsEq (.outer "users" "manager_id") (.named "users" "id"))], []⟩
    r.prior = none ∧
      r.select q = { q with wheres :=
        [.and (.columnsEq (.outer "users" "manager_id") (.named "wherehas_0" "id"))] } ∧
      q.Alike (fun c c' => c.scope = .outer → c' = c) (r.select q) ∧
      r.select (r.select q) = r.select q := by
  intro r q
  obtain ⟨-, -, houter, htwice⟩ := select_exact r q
  exact ⟨rfl, rfl, houter rfl, htwice⟩

end Repointing

end DottedQuery
