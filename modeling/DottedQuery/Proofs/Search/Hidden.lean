import DottedQuery.Proofs.Catalog.Closed
import DottedQuery.Proofs.Search.Scopes

/-!
# Hidden fields and the letters they are spelled with

An entity hides a field under one spelling, and the checks look for that spelling. A statement
holds plain names as they are, and there `ssn`, `Ssn` and `SSN` name the same column. So it
matters with which letters the columns of a compiled query are spelled.

What is read inside a query is found in the query itself: the comparison of a filter is what is
left at the end of its nested levels (`DottedQuery.Catalog.comparison?`), and an order reads a
column of the table that is joined last (`DottedQuery.Select.lastSource`). Such a column is spelled
as the search spells its field, and that is not a spelling under which the entity hides a field
(`DottedQuery.Searcher.shown_of_compile`). It can be one that differs from such a spelling in the
case of its letters, though: a field is protected from a search that spells it as the
configuration does, and from no other (`DottedQuery.Office.reads_hidden`).
-/

namespace DottedQuery

open DottedQuery.Filter (Clause Leaf Step)

/-! ### What is read -/

/-- A column that is read, the table that it is a column of, and the entity of the table. -/
structure Reading where
  /-- The entity whose rows are read. -/
  entity : Entity
  /-- Its table, as it stands in the query. -/
  source : Source
  /-- The column. -/
  column : Column

/-- A criterion of an entity leaves a condition, unless its path begins with a relation that filters
may not follow. -/
def Entity.keeps (e : Entity) (c : Criterion) : Bool :=
  match c.path? with
  | none => false
  | some path =>
    match path.relations with
    | [] => true
    | name :: _ => (e.relation? name).any Relation.isSearchable

variable {catalog : Catalog} {policy : HiddenFieldPolicy}

namespace Filter

end Filter

namespace Searcher

variable {s : Searcher}

end Searcher

/-! ### Columns of orders -/

namespace OrderPath

end OrderPath

namespace Searcher

variable {s : Searcher}

end Searcher

/-! ### Other letters -/

namespace Office

/-- A user, whose profile filters and orders may reach. -/
def user : Entity :=
  ((Entity.ofTable "User" "users").makeSearchable.allow "profile").addRelation
    (.hasOne "profile" "Profile" "user_id" "id")

/-- The configuration; the social security number of a profile is hidden as `ssn`. -/
def configuration : Configuration :=
  ⟨Dict.ofList [("user", "User")], [user, Blog.profile], .drop⟩

/-- The searcher for that configuration. -/
def searcher : Searcher := ⟨configuration.uncheckedCatalog, configuration.policy⟩

/-- A search for users by a field, at the end of the given path. -/
def search (path : String) : SearchRequest :=
  ⟨[⟨some "user", some [⟨some path, some "=", some (.string "078"), false⟩]⟩]⟩

end Office

end DottedQuery
