/-!
# Kinds of relations

A relation leads from the rows of one entity to rows of another. Its kind says how many there
can be and where the keys stand that tie them together.
-/

namespace DottedQuery

/-- The kind of a relation, seen from the entity that declares it. -/
inductive RelationKind where
  /-- To one row; the foreign key stands on the declaring entity. -/
  | belongsTo : RelationKind
  /-- To one row; the foreign key stands on the related entity. -/
  | hasOne : RelationKind
  /-- To many rows; the foreign key stands on the related entity. -/
  | hasMany : RelationKind
  /-- To many rows on both sides, through a pivot table that holds both keys. -/
  | belongsToMany : RelationKind
deriving DecidableEq, Repr

namespace RelationKind

/-- Whether a row has at most one related row. -/
def isToOne : RelationKind → Bool
  | belongsTo | hasOne => true
  | hasMany | belongsToMany => false

/-- Whether the relation goes through a pivot table. -/
def isManyToMany : RelationKind → Bool
  | belongsToMany => true
  | belongsTo | hasOne | hasMany => false

/-- The kind in a configuration. -/
def spelling : RelationKind → String
  | belongsTo => "belongs_to"
  | hasOne => "has_one"
  | hasMany => "has_many"
  | belongsToMany => "belongs_to_many"

/-- The kind in a message. -/
def title : RelationKind → String
  | belongsTo => "BelongsTo"
  | hasOne => "HasOne"
  | hasMany => "HasMany"
  | belongsToMany => "BelongsToMany"

/-- All kinds. -/
def all : List RelationKind := [belongsTo, hasOne, hasMany, belongsToMany]

/-- The kind with the given spelling. -/
def ofSpelling? (s : String) : Option RelationKind := all.find? fun k => k.spelling = s

end RelationKind

end DottedQuery
