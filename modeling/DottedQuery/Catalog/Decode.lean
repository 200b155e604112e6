import DottedQuery.Catalog.Configuration
import DottedQuery.Json.Values

/-!
# Configurations as JSON

How the parts of a catalog are written in a configuration. An allow-list is either a list of
names or an object that gives, under each name, the fields permitted behind it: one field, a
list of them, or `*` for every field.
-/

namespace DottedQuery

open Json (Decoder Document)

namespace Pivot

/-- The decoder of pivot tables. -/
def decoder : Decoder Pivot := fun room s => do
  let f ← Decoder.fields ["table", "related_pivot_key", "related_key"] room s
  return {
    table := ← f.required "table" .text
    relatedPivotKey := ← f.required "related_pivot_key" .text
    relatedKey := ← f.withDefault "related_key" Relation.defaultKey .text }

end Pivot

namespace RelationConstraint

/-- The decoder of constraints. -/
def decoder : Decoder RelationConstraint := fun room s => do
  let f ← Decoder.fields ["column", "where", "value"] room s
  return {
    column := ← f.required "column" .text
    op := ← f.required "where" (.parsed Operator.parse?)
    value := ← f.required "value" Value.decoder }

end RelationConstraint

namespace Relation

/-- The decoder of relations. -/
def decoder : Decoder Relation := fun room s => do
  let f ← Decoder.fields ["name", "kind", "related", "foreign_key", "owner_key", "pivot",
    "searchable", "constraints"] room s
  return {
    name := ← f.required "name" .text
    kind := ← f.required "kind" (.word RelationKind.ofSpelling?)
    related := ← f.required "related" .text
    foreignKey := ← f.required "foreign_key" .text
    ownerKey := ← f.withDefault "owner_key" defaultKey .text
    pivot := ← f.withDefault "pivot" none (.optional Pivot.decoder)
    searchable := ← f.withDefault "searchable" none (.optional .truth)
    constraints := ← f.withDefault "constraints" [] (.list RelationConstraint.decoder) }

end Relation

namespace Leaves

/-- The texts of a list of documents that are all texts. -/
def texts? (xs : List Document) : Option (List String) :=
  xs.mapM fun
    | .string s => some s
    | _ => none

/-- What is permitted behind a name. -/
def ofDocument? : Document → Option Leaves
  | .array xs => (texts? xs).map fun fields => .only (NameSet.ofNames fields)
  | .string s => some (if s = "*" then .any else .only (NameSet.ofNames [s]))
  | _ => none

end Leaves

namespace AllowList

/-- The allow-list that a document is. -/
def ofDocument? : Document → Option AllowList
  | .array xs => (Leaves.texts? xs).map fun names => ⟨Dict.ofList (names.map (·, .any))⟩
  | .object ms =>
    (ms.mapM fun m => (Leaves.ofDocument? m.2).map (m.1, ·)).map fun es => ⟨Dict.ofList es⟩
  | _ => none

/-- The decoder of allow-lists. -/
def decoder : Decoder AllowList := .whole ofDocument?

end AllowList

namespace Entity

/-- The decoder of entities. -/
def decoder : Decoder Entity := fun room s => do
  let f ← Decoder.fields ["name", "table", "is_searchable", "searchable", "hidden", "relations"]
    room s
  return {
    name := ← f.required "name" .text
    table := ← f.required "table" .text
    searchable := ← f.withDefault "is_searchable" false .truth
    allowed := ← f.withDefault "searchable" AllowList.empty AllowList.decoder
    hidden := NameSet.ofNames (← f.withDefault "hidden" [] (.list .text))
    relations := ← f.withDefault "relations" [] (.list Relation.decoder) }

end Entity

namespace Configuration

/-- The decoder of configurations. -/
def decoder : Decoder Configuration := fun room s => do
  let f ← Decoder.fields ["search_models", "entities", "hidden_field_policy"] room s
  return {
    searchModels := ← f.withDefault "search_models" Dict.empty (.dict .text)
    entities := ← f.withDefault "entities" [] (.list Entity.decoder)
    policy := ← f.withDefault "hidden_field_policy" .drop (.word HiddenFieldPolicy.ofSpelling?) }

/-- **The configuration that a text holds.** -/
def ofText (s : String) : Except SearchError Configuration :=
  match Decoder.decode? decoder s with
  | none => .error .undecodable
  | some c => .ok c

/-- The configuration in a file, where `read?` gives the text of a file that can be read. -/
def load (read? : String → Option String) (path : String) : Except SearchError Configuration :=
  match read? path with
  | none => .error .unreadable
  | some s => ofText s

end Configuration

end DottedQuery
