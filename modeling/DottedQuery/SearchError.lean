import DottedQuery.Catalog.Kind
import DottedQuery.Decimal.Integer
import DottedQuery.Messages

/-!
# Why a search fails

Every way in which a configuration or a search can fail is a case of `DottedQuery.SearchError`.
`DottedQuery.SearchError.message` is its wording and `DottedQuery.SearchError.category` what it
means to a client: that the request has the wrong shape, that it asks for something it may not
see, that there is nothing to search, or that the service itself is set up wrongly.
-/

namespace DottedQuery

open Decimal (natText)

/-- What is wrong with a configuration or a catalog. -/
inductive ConfigFault where
  /-- Two entities share a name. -/
  | duplicateEntity (entity : String) : ConfigFault
  /-- A search key names an entity that is not defined. -/
  | unknownSearchEntity (key entity : String) : ConfigFault
  /-- A relation leads to an entity that is not defined. -/
  | unknownRelated (entity relation related : String) : ConfigFault
  /-- A relation of an entity goes through a pivot table and has none. -/
  | missingPivot (entity relation : String) : ConfigFault
  /-- A relation goes through a pivot table and has none, found while a query was built. -/
  | noPivot (relation : String) : ConfigFault
  /-- Any other fault, in words. -/
  | other (detail : String) : ConfigFault
deriving DecidableEq, Repr

namespace ConfigFault

/-- The wording of a fault. -/
def message : ConfigFault → String
  | duplicateEntity entity => "entity `" ++ entity ++ "` is defined more than once"
  | unknownSearchEntity key entity =>
    "search key `" ++ key ++ "` points at unknown entity `" ++ entity ++ "`"
  | unknownRelated entity relation related =>
    "relation `" ++ entity ++ "." ++ relation ++ "` points at unknown entity `" ++ related ++ "`"
  | missingPivot entity relation =>
    "many-to-many relation `" ++ entity ++ "." ++ relation ++ "` has no pivot"
  | noPivot relation => "many-to-many relation `" ++ relation ++ "` has no pivot"
  | other detail => detail

end ConfigFault

/-- Why a configuration is refused or a search fails. -/
inductive SearchError where
  /-- The request has no items. -/
  | emptyRequest : SearchError
  /-- The request has the wrong shape. -/
  | invalid (messages : Messages) : SearchError
  /-- No entity goes by this key or name. -/
  | unknownEntity (name : String) : SearchError
  /-- The entity takes no part in searches. -/
  | notSearchable (key : String) : SearchError
  /-- A field or relation may not be used on the entity. -/
  | denied (entity field : String) : SearchError
  /-- A criterion lacks its field, its operator or its value. -/
  | malformedCriterion (item criterion : Nat) : SearchError
  /-- The entity has no such relation. -/
  | unknownRelation (entity relation : String) : SearchError
  /-- A relation of this kind cannot be joined. -/
  | unjoinable (relation : String) (kind : RelationKind) : SearchError
  /-- The configuration or the catalog is wrong. -/
  | config (fault : ConfigFault) : SearchError
  /-- A configuration could not be read from its file. -/
  | unreadable : SearchError
  /-- A text is not the JSON it should be. -/
  | undecodable : SearchError

/-- What a failure means to a client. -/
inductive Category where
  /-- The request has the wrong shape. -/
  | validation : Category
  /-- The request touches something it may not. -/
  | permissionDenied : Category
  /-- There is nothing to search. -/
  | notFound : Category
  /-- The service is set up wrongly. -/
  | internal : Category
deriving DecidableEq, Repr

namespace SearchError

/-- What a failure means to a client. -/
def category : SearchError → Category
  | emptyRequest | unknownEntity _ => .notFound
  | invalid _ | malformedCriterion .. | unknownRelation .. | unjoinable .. => .validation
  | notSearchable _ | denied .. => .permissionDenied
  | config _ | unreadable | undecodable => .internal

/-- The wording of a failure. The last two are worded by whatever failed, of which nothing is
known here. -/
def message : SearchError → String
  | emptyRequest => "no search parameters set"
  | invalid messages => "validation failed: " ++ messages.display
  | unknownEntity name => "entity `" ++ name ++ "` does not exist"
  | notSearchable key => "entity `" ++ key ++ "` is not searchable"
  | denied entity field =>
    "permission denied: `" ++ field ++ "` is not searchable on `" ++ entity ++ "`"
  | malformedCriterion item criterion =>
    "criterion #" ++ natText criterion ++ " of search item #" ++ natText item ++
      " is missing a field or operator"
  | unknownRelation entity relation =>
    "unknown relation `" ++ relation ++ "` on entity `" ++ entity ++ "`"
  | unjoinable relation kind =>
    "relation `" ++ relation ++ "` (" ++ kind.title ++ ") cannot be joined for ordering"
  | config fault => "configuration error: " ++ fault.message
  | unreadable => "io error"
  | undecodable => "serialization error"

end SearchError

end DottedQuery
