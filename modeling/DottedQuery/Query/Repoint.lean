import DottedQuery.Query.Select

/-!
# Pointing columns at aliases

The sub-query of a relation is first built on the names of its tables. Once its own table has an
alias, the columns of that table have to be qualified by it, and the columns of the table around
it by whatever that table goes by there. A `DottedQuery.Repointing` does both at once, so it
keeps the two sides of a relation apart even when a table is related to itself: it changes the
qualifiers of one table in the *named* scope and those of another in the *outer* scope, whole
names only.

Only the conditions of the query itself and of its joins are touched. A sub-query of it is left
as it is, for its columns have been pointed already when it was built.
-/

namespace DottedQuery

/-- New qualifiers for the columns of a query. -/
structure Repointing where
  /-- The table of the query whose columns are pointed elsewhere. -/
  table : String
  /-- What they are qualified by from then on. -/
  label : String
  /-- The table of the query around it, and what its columns are qualified by from then on. -/
  prior : Option (String × String)

namespace Repointing

/-- The new qualifier in the place of an old one. -/
def qualifier (r : Repointing) : Scope → String → String
  | .named, table => if table = r.table then r.label else table
  | .outer, table =>
    match r.prior with
    | none => table
    | some (prior, label) => if table = prior then label else table

/-- A column with its new qualifier. -/
def column (r : Repointing) (c : Column) : Column :=
  { c with table := r.qualifier c.scope c.table }

/-- A predicate with its own columns pointed elsewhere. -/
def predicate (r : Repointing) : Predicate → Predicate
  | .compare c op value => .compare (r.column c) op value
  | .inSet c negated values => .inSet (r.column c) negated values
  | .columns left op right => .columns (r.column left) op (r.column right)
  | .exists sub => .exists sub

/-- A condition with its own columns pointed elsewhere. -/
def condition (r : Repointing) (c : Condition) : Condition :=
  { c with predicate := r.predicate c.predicate }

/-- A joined table with the columns of its conditions pointed elsewhere. -/
def join (r : Repointing) (j : Join) : Join := { j with on := j.on.map r.condition }

/-- **A query with its columns pointed elsewhere.** -/
def select (r : Repointing) (q : Select) : Select :=
  { q with joins := q.joins.map r.join, wheres := q.wheres.map r.condition }

end Repointing

end DottedQuery
