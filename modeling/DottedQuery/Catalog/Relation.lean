import DottedQuery.Query.Select
import DottedQuery.SearchError

/-!
# Relations

A relation of an entity names the entity it leads to, the columns that tie their rows together,
and conditions that related rows always satisfy. Where the key columns stand depends on its
kind:

| kind                 | `foreignKey` stands on | `ownerKey` stands on |
|----------------------|------------------------|----------------------|
| `belongsTo`          | the declaring entity   | the related entity   |
| `hasOne`, `hasMany`  | the related entity     | the declaring entity |
| `belongsToMany`      | the pivot table        | the declaring entity |

A relation is used in two ways: as a sub-query that asks for a related row
(`DottedQuery.Relation.existsQuery`) and as the conditions of a join
(`DottedQuery.Relation.joinConditions`).
-/

namespace DottedQuery

/-- The pivot table of a relation between many and many. -/
structure Pivot where
  /-- The name of the pivot table. -/
  table : String
  /-- Its column that holds the key of the related entity. -/
  relatedPivotKey : String
  /-- The column of the related entity that is held there. -/
  relatedKey : String
deriving DecidableEq, Repr

/-- A condition that a relation always lays on its related rows. -/
structure RelationConstraint where
  /-- The column of the related entity. -/
  column : String
  /-- The operator. -/
  op : Operator
  /-- What the column is compared with. -/
  value : Value

/-- A relation, as its entity declares it. -/
structure Relation where
  /-- The name by which paths call it. -/
  name : String
  /-- Its kind. -/
  kind : RelationKind
  /-- The name of the related entity. -/
  related : String
  /-- The foreign key. -/
  foreignKey : String
  /-- The key that the foreign key holds. -/
  ownerKey : String
  /-- The pivot table, for a relation between many and many. -/
  pivot : Option Pivot
  /-- Whether filters may follow it; they may if nothing is said. -/
  searchable : Option Bool
  /-- The conditions that related rows always satisfy. -/
  constraints : List RelationConstraint

namespace Relation

/-- The key column that is meant when none is named. -/
def defaultKey : String := "id"

/-- A relation without pivot table and constraints. -/
def simple (kind : RelationKind) (name related foreignKey ownerKey : String) : Relation :=
  ⟨name, kind, related, foreignKey, ownerKey, none, none, []⟩

/-- A relation to the one row whose `ownerKey` the `foreignKey` holds. -/
def belongsTo (name related foreignKey ownerKey : String) : Relation :=
  simple .belongsTo name related foreignKey ownerKey

/-- A relation to the one row whose `foreignKey` holds the `ownerKey`. -/
def hasOne (name related foreignKey ownerKey : String) : Relation :=
  simple .hasOne name related foreignKey ownerKey

/-- A relation to the rows whose `foreignKey` holds the `ownerKey`. -/
def hasMany (name related foreignKey ownerKey : String) : Relation :=
  simple .hasMany name related foreignKey ownerKey

/-- A relation through a pivot table; both entities are known there by their default key. -/
def belongsToMany (name related pivotTable foreignPivotKey relatedPivotKey : String) : Relation :=
  { simple .belongsToMany name related foreignPivotKey defaultKey with
    pivot := some ⟨pivotTable, relatedPivotKey, defaultKey⟩ }

/-- Says whether filters may follow the relation. -/
def withSearchable (r : Relation) (searchable : Bool) : Relation :=
  { r with searchable := some searchable }

/-- Adds a condition that related rows always satisfy. -/
def withConstraint (r : Relation) (column : String) (op : Operator) (value : Value) : Relation :=
  { r with constraints := r.constraints ++ [⟨column, op, value⟩] }

/-- Whether filters may follow the relation. -/
def isSearchable (r : Relation) : Bool := r.searchable.getD true

/-- What the constraints demand of the rows of a table that goes by the name `table`. -/
def constraintConditions (r : Relation) (table : String) : List Condition :=
  r.constraints.map fun c => .and (.forOperator (.named table c.column) c.op c.value)

/-- What ties a related row to the row it is related to: the key of a relation, where `parent`
makes a column of the declaring side and `child` one of the other side, which is the pivot table
for a relation that has one. -/
def keyCondition (r : Relation) (parent child : String → Column) : Predicate :=
  match r.kind with
  | .belongsTo => .columnsEq (parent r.foreignKey) (child r.ownerKey)
  | .hasOne | .hasMany | .belongsToMany => .columnsEq (parent r.ownerKey) (child r.foreignKey)

/-- **The related rows as a sub-query**, built on the names of the tables: it reads the related
table, joins the pivot table if there is one, and ties both to the row of the table around it,
whose columns stand in the outer scope. -/
def existsQuery (r : Relation) (parentTable relatedTable : String) :
    Except SearchError Select :=
  let base := Select.ofTable relatedTable
  let extra := r.constraintConditions relatedTable
  if r.kind.isManyToMany then
    match r.pivot with
    | none => .error (.config (.noPivot r.name))
    | some pivot =>
      let through := Predicate.columnsEq (.named relatedTable pivot.relatedKey)
        (.named pivot.table pivot.relatedPivotKey)
      .ok { base with
        joins := [⟨.inner, ⟨pivot.table, none⟩, [.and through]⟩]
        wheres := .and (r.keyCondition (.outer parentTable) (.named pivot.table)) :: extra }
  else
    .ok { base with
      wheres := .and (r.keyCondition (.outer parentTable) (.named relatedTable)) :: extra }

/-- **The conditions of a join** of the related table, under an alias, with the table that goes
by the name `parent`. A relation through a pivot table would take two joins and is refused. -/
def joinConditions (r : Relation) (parent label : String) : Except SearchError (List Condition) :=
  let tied (key : Predicate) := .ok (.and key :: r.constraintConditions label)
  match r.kind with
  | .belongsTo => tied (.columnsEq (.named label r.ownerKey) (.named parent r.foreignKey))
  | .hasOne | .hasMany => tied (.columnsEq (.named parent r.ownerKey) (.named label r.foreignKey))
  | .belongsToMany => .error (.unjoinable r.name r.kind)

end Relation

end DottedQuery
