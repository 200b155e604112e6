import DottedQuery.Query.Operator
import DottedQuery.Value

/-!
# Select queries

A query reads from a table, joins others to it, keeps the rows that satisfy a flat list of
conditions and orders them. A condition is a predicate with the combinator that ties it to the
conditions before it; the combinator of the first one says nothing. A predicate may be the
existence of a row in a sub-query, so predicates, conditions, joins and queries are defined
together.

A column is qualified by the name that its table goes by. Its *scope* tells a table of the same
query from one of the query around it; a statement shows the qualifier only, but the scope
allows columns to be pointed elsewhere (`DottedQuery.Repointing`) even when both tables have one
name.
-/

namespace DottedQuery

/-! ### The parts of a query -/

/-- Where the table of a column stands. -/
inductive Scope where
  /-- In the same query. -/
  | named : Scope
  /-- In the query around it. -/
  | outer : Scope
deriving DecidableEq, Repr

/-- A column, qualified by the name its table goes by. -/
structure Column where
  /-- Where the table stands. -/
  scope : Scope
  /-- The name the table goes by. -/
  table : String
  /-- The name of the column. -/
  name : String
deriving DecidableEq, Repr

namespace Column

/-- A column of a table of the same query. -/
def named (table name : String) : Column := ⟨.named, table, name⟩

/-- A column of a table of the query around it. -/
def outer (table name : String) : Column := ⟨.outer, table, name⟩

end Column

/-- A table that a query reads, under an alias or under its own name. -/
structure Source where
  /-- The name of the table. -/
  table : String
  /-- The alias, if it has one. -/
  label : Option String
deriving DecidableEq, Repr

namespace Source

/-- The name the rest of the query calls the table by. -/
def qualifier (s : Source) : String := s.label.getD s.table

end Source

/-- What a join does with rows that find no partner. -/
inductive JoinKind where
  /-- They are dropped. -/
  | inner : JoinKind
  /-- They are kept, with a row of nulls for a partner. -/
  | left : JoinKind
deriving DecidableEq, Repr

namespace JoinKind

/-- The kind in a statement. -/
def sql : JoinKind → String
  | inner => "inner join"
  | left => "left join"

end JoinKind

/-- What a query returns of its rows. -/
inductive Projection where
  /-- Every column. -/
  | all : Projection
  /-- Every column of one table. -/
  | allOf (table : String) : Projection
deriving DecidableEq, Repr

/-- A term of an order. -/
structure OrderTerm where
  /-- The column ordered by. -/
  column : Column
  /-- The direction. -/
  direction : Direction
deriving DecidableEq, Repr

/-! ### Queries -/

mutual

/-- What a condition demands of a row. -/
inductive Predicate where
  /-- A column compares with a value. -/
  | compare (column : Column) (op : Operator) (value : Value) : Predicate
  /-- A column is a member of a set, or is not. -/
  | inSet (column : Column) (negated : Bool) (values : List Value) : Predicate
  /-- Two columns compare. -/
  | columns (left : Column) (op : Operator) (right : Column) : Predicate
  /-- A sub-query has a row. -/
  | exists (sub : Select) : Predicate

/-- A predicate and the way it is combined with the conditions before it. -/
structure Condition where
  /-- The combinator; that of a first condition says nothing. -/
  combinator : Combinator
  /-- The predicate. -/
  predicate : Predicate

/-- A table joined to those before it. -/
structure Join where
  /-- What becomes of rows without a partner. -/
  kind : JoinKind
  /-- The joined table. -/
  source : Source
  /-- What makes two rows partners. -/
  on : List Condition

/-- **A select query.** -/
structure Select where
  /-- What is returned; everything, when the list is empty. -/
  projection : List Projection
  /-- The table that is read. -/
  source : Source
  /-- The joined tables, in order. -/
  joins : List Join
  /-- The conditions, in order. -/
  wheres : List Condition
  /-- The terms of the order, the most significant first. -/
  orderBy : List OrderTerm

end

namespace Predicate

/-- Two columns are equal. -/
def columnsEq (left right : Column) : Predicate := .columns left .eq right

/-- What a criterion demands: a set operator takes the members of its value, any other operator
the value itself. -/
def forOperator (column : Column) (op : Operator) (value : Value) : Predicate :=
  if op.isSet then .inSet column (op = .notIn) value.members else .compare column op value

/-- The sub-query of a predicate of existence. -/
def subquery? : Predicate → Option Select
  | .exists sub => some sub
  | _ => none

end Predicate

namespace Condition

/-- A condition that must hold together with those before it. -/
def and (p : Predicate) : Condition := ⟨.and, p⟩

/-- A condition that may hold instead of those before it. -/
def or (p : Predicate) : Condition := ⟨.or, p⟩

end Condition

namespace Select

/-- The query for all rows of a table. -/
def ofTable (table : String) : Select := ⟨[], ⟨table, none⟩, [], [], []⟩

/-- Gives the table that is read an alias. -/
def aliased (q : Select) (label : String) : Select :=
  { q with source := { q.source with label := some label } }

/-- Adds a condition. -/
def addCondition (q : Select) (c : Condition) : Select := { q with wheres := q.wheres ++ [c] }

/-- Adds a condition that must hold together with those before it. -/
def addWhere (q : Select) (p : Predicate) : Select := q.addCondition (.and p)

/-- Adds joined tables. -/
def addJoins (q : Select) (js : List Join) : Select := { q with joins := q.joins ++ js }

/-- Adds a term to the order. -/
def addOrder (q : Select) (column : Column) (direction : Direction) : Select :=
  { q with orderBy := q.orderBy ++ [⟨column, direction⟩] }

/-- Adds something to what is returned. -/
def addProjection (q : Select) (p : Projection) : Select :=
  { q with projection := q.projection ++ [p] }

/-! ### Counting -/

/-- The sub-queries of the predicates of existence among the conditions of the query itself. -/
def subqueries (q : Select) : List Select := q.wheres.filterMap fun c => c.predicate.subquery?

/-- The number of predicates of existence among the conditions of the query itself. -/
def existsCount (q : Select) : Nat := q.subqueries.length

mutual

/-- The number of comparisons with values and set predicates among the conditions of the query
and, at any depth, of its sub-queries. The conditions of joins are not counted. -/
def valuePredicateCount : Select → Nat
  | ⟨_, _, _, wheres, _⟩ => valuePredicates wheres

/-- The number of such predicates in a list of conditions. -/
def valuePredicates : List Condition → Nat
  | [] => 0
  | c :: cs => conditionValuePredicates c + valuePredicates cs

/-- The number of such predicates in a condition. -/
def conditionValuePredicates : Condition → Nat
  | ⟨_, p⟩ => predicateValuePredicates p

/-- The number of such predicates in a predicate. -/
def predicateValuePredicates : Predicate → Nat
  | .compare .. => 1
  | .inSet .. => 1
  | .columns .. => 0
  | .exists sub => sub.valuePredicateCount

end

end Select

end DottedQuery
