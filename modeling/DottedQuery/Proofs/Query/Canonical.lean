import DottedQuery.Query.Render

/-!
# What a statement does not show

Four things about a query cannot be seen in its statement: the scope of a column; whether
everything is returned because that was asked for or because nothing was said; the combinator of
the first condition of a list; and the column of a membership in the set without members. A query
with these four settled is its **canonical** form (`DottedQuery.Select.canonical`), and it has the
same statement (`DottedQuery.Select.statement_canonical`).
-/

namespace DottedQuery

/-! ### Canonical forms -/

/-- A column of the same query. -/
def Column.canonical (c : Column) : Column := .named c.table c.name

/-- The column that stands for one that is not shown. -/
def Column.absent : Column := .named "" ""

/-- A term of an order on a column of the same query. -/
def OrderTerm.canonical (o : OrderTerm) : OrderTerm := { o with column := o.column.canonical }

/-- What is returned, when nothing is said: everything. -/
def canonicalProjection (ps : List Projection) : List Projection :=
  if ps.isEmpty then [.all] else ps

mutual

/-- **The canonical form of a query.** -/
def Select.canonical : Select → Select
  | ⟨projection, source, joins, wheres, orderBy⟩ =>
    ⟨canonicalProjection projection, source, canonicalJoins joins, canonicalConditions wheres,
      orderBy.map OrderTerm.canonical⟩

/-- The canonical forms of joined tables. -/
def canonicalJoins : List Join → List Join
  | [] => []
  | j :: js => j.canonical :: canonicalJoins js

/-- The canonical form of a joined table. -/
def Join.canonical : Join → Join
  | ⟨kind, source, on⟩ => ⟨kind, source, canonicalConditions on⟩

/-- The canonical forms of conditions, the first of which is combined by *and*. -/
def canonicalConditions : List Condition → List Condition
  | [] => []
  | c :: cs => .and c.canonical.predicate :: canonicalFurther cs

/-- The canonical forms of conditions after the first one. -/
def canonicalFurther : List Condition → List Condition
  | [] => []
  | c :: cs => c.canonical :: canonicalFurther cs

/-- The canonical form of a condition. -/
def Condition.canonical : Condition → Condition
  | ⟨combinator, p⟩ => ⟨combinator, p.canonical⟩

/-- The canonical form of a predicate. -/
def Predicate.canonical : Predicate → Predicate
  | .compare column op value => .compare column.canonical op value
  | .inSet column negated values =>
    .inSet (if values.isEmpty then .absent else column.canonical) negated values
  | .columns left op right => .columns left.canonical op right.canonical
  | .exists sub => .exists sub.canonical

end

/-! ### They are written alike -/

theorem projectionPieces_canonical (ps : List Projection) :
    projectionPieces (canonicalProjection ps) = projectionPieces ps := by
  cases ps <;> rfl

theorem orderPieces_canonical (os : List OrderTerm) :
    orderPieces (os.map OrderTerm.canonical) = orderPieces os := by
  have hterms : (os.map OrderTerm.canonical).map OrderTerm.pieces = os.map OrderTerm.pieces := by
    rw [List.map_map]
    exact List.map_congr_left fun o _ => rfl
  rw [orderPieces, orderPieces, hterms]
  cases os <;> rfl

mutual

/-- **A query and its canonical form have the same pieces.** -/
theorem Select.pieces_canonical : ∀ q : Select, q.canonical.pieces = q.pieces
  | ⟨projection, source, joins, wheres, orderBy⟩ => by
    rw [Select.canonical, Select.pieces, Select.pieces, projectionPieces_canonical,
      joinsPieces_canonical joins, wherePieces_canonical wheres, orderPieces_canonical]

theorem joinsPieces_canonical : ∀ js : List Join, joinsPieces (canonicalJoins js) = joinsPieces js
  | [] => rfl
  | ⟨kind, source, on⟩ :: js => by
    rw [canonicalJoins, joinsPieces, joinsPieces, joinsPieces_canonical js, Join.canonical,
      Join.pieces, Join.pieces, conditionsPieces_canonical on]

theorem wherePieces_canonical : ∀ cs : List Condition,
    wherePieces (canonicalConditions cs) = wherePieces cs
  | [] => rfl
  | ⟨b, p⟩ :: cs => by
    rw [canonicalConditions, wherePieces, wherePieces, furtherPieces_canonical cs,
      Condition.canonical, Condition.and, Condition.pieces, Condition.pieces, p.pieces_canonical]

theorem conditionsPieces_canonical : ∀ cs : List Condition,
    conditionsPieces (canonicalConditions cs) = conditionsPieces cs
  | [] => rfl
  | ⟨b, p⟩ :: cs => by
    rw [canonicalConditions, conditionsPieces, conditionsPieces, furtherPieces_canonical cs,
      Condition.canonical, Condition.and, Condition.pieces, Condition.pieces, p.pieces_canonical]

theorem furtherPieces_canonical : ∀ cs : List Condition,
    furtherPieces (canonicalFurther cs) = furtherPieces cs
  | [] => rfl
  | ⟨b, p⟩ :: cs => by
    rw [canonicalFurther, furtherPieces, furtherPieces, furtherPieces_canonical cs,
      Condition.canonical, Condition.pieces, Condition.pieces, p.pieces_canonical]

theorem Predicate.pieces_canonical : ∀ p : Predicate, p.canonical.pieces = p.pieces
  | .compare column op value => rfl
  | .inSet column negated values => by
    rw [Predicate.canonical, Predicate.pieces, Predicate.pieces]
    cases values <;> rfl
  | .columns left op right => rfl
  | .exists sub => by
    rw [Predicate.canonical, Predicate.pieces, Predicate.pieces, sub.pieces_canonical]

end

/-- **A query and its canonical form have the same statement.** -/
theorem Select.statement_canonical (q : Select) : q.canonical.statement = q.statement := by
  rw [Select.statement, Select.statement, q.pieces_canonical]

end DottedQuery
