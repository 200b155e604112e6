import DottedQuery.Proofs.Catalog.Related
import DottedQuery.Proofs.Rows.Database
import DottedQuery.Search.Searcher

/-!
# What a search means

A search is given a meaning of its own over a database, without a query: a row of an entity is
what is found if it meets the criteria (`DottedQuery.SearchItem.met`).

A criterion on a field of the entity tests the row. One whose path follows relations asks for a
related row, for one that is related to that, and so on, and the row at the end is tested. Two
rows are related (`DottedQuery.Relation.relates`) if the keys of the relation tie them – through a
row of the pivot table, for a relation that has one – and the related row satisfies the
constraints of the relation. Protected data asks for nothing: where filters may not follow the
next relation, and where the field at the end is hidden, every row will do.

The criteria of an item are an alternative of groups, and a criterion that may hold instead of
those before it begins a new group. One that may not even be followed along its first relation is
left out before the groups are made.
-/

namespace DottedQuery

variable (db : Database)

namespace Relation

/-- Whether the key of a relation ties two rows, the second of which is a row of the pivot table
for a relation that has one. -/
def keyTies (r : Relation) (row other : db.Row) : Bool :=
  match r.kind with
  | .belongsTo => db.relates .eq (db.cell row r.foreignKey) (db.cell other r.ownerKey)
  | .hasOne | .hasMany | .belongsToMany =>
    db.relates .eq (db.cell row r.ownerKey) (db.cell other r.foreignKey)

/-- Whether two rows are tied by the keys of a relation. -/
def ties (r : Relation) (row related : db.Row) : Bool :=
  match r.through? with
  | none => r.keyTies db row related
  | some p => (db.rows p.table).any fun middle =>
    db.relates .eq (db.cell related p.relatedKey) (db.cell middle p.relatedPivotKey) &&
      r.keyTies db row middle

/-- Whether a row satisfies the constraints of a relation that leads to it. -/
def constrains (r : Relation) (related : db.Row) : Bool :=
  r.constraints.all fun c => db.tests c.op (db.cell related c.column) c.value

/-- **Whether a relation leads from one row to another.** -/
def relates (r : Relation) (row related : db.Row) : Bool :=
  r.ties db row related && r.constrains db related

end Relation

namespace Filter

/-- Whether a row passes the comparison of a leaf. -/
def Leaf.met (leaf : Leaf) (row : db.Row) : Bool :=
  db.tests leaf.op (db.cell row leaf.field) leaf.value

/-- **Whether a row meets a leaf behind relations.** -/
def met (catalog : Catalog) (leaf : Leaf) : List String → Entity → db.Row → Bool
  | [], e, row => e.isHidden leaf.field || leaf.met db row
  | name :: rest, e, row =>
    match e.relation? name with
    | none => false
    | some relation =>
      if relation.isSearchable then
        match catalog.entity? relation.related with
        | none => false
        | some related =>
          (db.rows related.table).any fun row' =>
            relation.relates db row row' && met catalog leaf rest related row'
      else true

end Filter

/-- Whether filters may follow the first relation of a path from an entity, if it has one. -/
def FieldPath.enters (path : FieldPath) (e : Entity) : Bool :=
  ((path.relations.head?.bind e.relation?).map Relation.isSearchable).getD true

namespace Criterion

/-- Whether a criterion on an entity counts at all. -/
def counts (c : Criterion) (e : Entity) : Bool := (c.path?.map (·.enters e)).getD true

/-- **Whether a row of an entity meets a criterion.** -/
def met (catalog : Catalog) (e : Entity) (row : db.Row) (c : Criterion) : Bool :=
  match Searcher.parts? c with
  | none => false
  | some (path, op, value) =>
    if path.isRelational then
      Filter.met db catalog ⟨path.field, op, value⟩ path.relations e row
    else Filter.Leaf.met db ⟨path.field, op, value⟩ row

end Criterion

namespace SearchItem

/-- The groups of criteria of an item, all of which a row may meet instead of another. -/
def groups (i : SearchItem) (e : Entity) : List (List Criterion) :=
  (i.criteriaList.filter (·.counts e)).splitBy fun _ c => !c.or

/-- **Whether a row of an entity meets an item**: it meets all criteria of one of the groups, if
there are any. -/
def met (catalog : Catalog) (e : Entity) (row : db.Row) (i : SearchItem) : Bool :=
  (i.groups e).isEmpty || (i.groups e).any fun g => g.all (Criterion.met db catalog e row)

end SearchItem

end DottedQuery
