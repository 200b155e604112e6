import DottedQuery.Proofs.Catalog.Closed
import Mathlib.Data.List.Perm.Basic
import Mathlib.Data.List.Forall2

/-!
# Accepted configurations

A configuration is looked at in three passes: its entities are searched for a name that was seen
before, they are written into a table, and the references of the table are checked, up to the first
fault. What the passes amount to knows no order (`DottedQuery.Configuration.Sound`): entities have
different names, and whatever a search key or a relation refers to is there. A configuration is
accepted exactly if it is sound, and its catalog holds its entities under their names and nothing
else (`DottedQuery.Configuration.catalog_eq_ok_iff`).

| whose order               | what it decides            | why it makes no difference              |
|---------------------------|----------------------------|-----------------------------------------|
| the entities as listed    | which name was seen before | `Configuration.SameUpToOrder.sound_iff` |
| the relations of each     | which fault is the first   | `Configuration.SameUpToOrder.sound_iff` |
| the entities of the table | which fault is the first   | `Configuration.catalogIn_eq_ok_iff`     |

The last order is an accident of the table. Here its entries are sorted, but what is proved holds
for every order in which a table hands out its entities (`DottedQuery.Configuration.catalogIn`).
-/

namespace DottedQuery

/-! ### Checking in any order -/

namespace Catalog

/-- The first thing that is wrong with the references of a catalog whose entities are looked at in
the given order. -/
def faultIn? (catalog : Catalog) (es : List Entity) : Option ConfigFault :=
  (catalog.searchKeys.entries.findSome? fun (key, name) => catalog.keyFault? key name).or
    (es.findSome? fun e => e.relations.findSome? (catalog.relationFault? e))

/-- Checking a catalog whose entities are looked at in the given order. -/
def checkIn (catalog : Catalog) (es : List Entity) : Except SearchError Unit :=
  match catalog.faultIn? es with
  | none => .ok ()
  | some fault => .error (.config fault)

/-- **There is no fault** if all search keys and all relations lead to entities, and all pivot
tables are there. -/
theorem faultIn?_eq_none_iff {catalog : Catalog} {es : List Entity} :
    catalog.faultIn? es = none ↔
      (∀ key name, catalog.searchKeys.get? key = some name →
        ∃ e, catalog.entity? name = some e) ∧
      ∀ e ∈ es, ∀ r ∈ e.relations, (∃ related, catalog.entity? r.related = some related) ∧
        (r.kind.isManyToMany = true → ∃ p, r.pivot = some p) := by
  simp only [faultIn?, Option.or_eq_none_iff, List.findSome?_eq_none_iff, Prod.forall,
    keyFault?_eq_none_iff, relationFault?_eq_none_iff, Dict.get?_eq_some_iff]

end Catalog

namespace Configuration

/-- The catalog of a configuration whose entities the table hands out in the given order. -/
def catalogIn (c : Configuration) (es : List Entity) : Except SearchError Catalog :=
  match duplicate? [] c.entities with
  | some name => .error (.config (.duplicateEntity name))
  | none =>
    match c.uncheckedCatalog.checkIn es with
    | .error e => .error e
    | .ok () => .ok c.uncheckedCatalog

/-- The catalog of a configuration is the one for entities in the order of their names. -/
theorem catalog_eq_catalogIn (c : Configuration) :
    c.catalog = c.catalogIn c.uncheckedCatalog.entities.values := rfl

end Configuration

/-! ### Sound configurations -/

namespace Configuration

/-- An entity of a configuration goes by a name. -/
def Names (c : Configuration) (name : String) (e : Entity) : Prop := e ∈ c.entities ∧ e.name = name

/-- **A configuration is sound**: its entities have different names, and its references hold. -/
structure Sound (c : Configuration) : Prop where
  /-- No two entities have the same name. -/
  distinct : c.entities.Pairwise fun e e' => e.name ≠ e'.name
  /-- Search keys lead to entities. -/
  exposes : ∀ key name, c.searchModels.get? key = some name → ∃ e, c.Names name e
  /-- So do relations. -/
  leads : ∀ e ∈ c.entities, ∀ r ∈ e.relations, ∃ related, c.Names r.related related
  /-- Relations between many and many have their pivot table. -/
  pivots : ∀ e ∈ c.entities, ∀ r ∈ e.relations, r.kind = .belongsToMany → ∃ p, r.pivot = some p

end Configuration

/-- Two entities that differ at most in the order of their relations. -/
def Entity.SameUpToOrder (e e' : Entity) : Prop :=
  ∃ rs, rs.Perm e.relations ∧ e' = { e with relations := rs }

/-- **Two configurations that differ at most in order**: that of the entities, and that of the
relations of each of them. -/
def Configuration.SameUpToOrder (c c' : Configuration) : Prop :=
  c'.searchModels = c.searchModels ∧
    ∃ es, es.Perm c.entities ∧ List.Forall₂ Entity.SameUpToOrder es c'.entities

namespace Configuration

variable {c c' : Configuration}

/-! ### Soundness knows no order -/

/-- What is asked of a configuration, said of the list of its names and that of its relations. -/
theorem sound_iff : c.Sound ↔
    (c.entities.map Entity.name).Nodup ∧
    (∀ key name, c.searchModels.get? key = some name → name ∈ c.entities.map Entity.name) ∧
    ∀ r ∈ c.entities.flatMap Entity.relations, r.related ∈ c.entities.map Entity.name ∧
      (r.kind = .belongsToMany → ∃ p, r.pivot = some p) := by
  simp only [List.Nodup, List.pairwise_map, List.mem_map, List.mem_flatMap]
  constructor
  · intro h
    exact ⟨h.distinct, h.exposes, fun r ⟨e, he, hr⟩ => ⟨h.leads e he r hr, h.pivots e he r hr⟩⟩
  · rintro ⟨hdistinct, hexposes, hrelations⟩
    exact ⟨hdistinct, hexposes, fun e he r hr => (hrelations r ⟨e, he, hr⟩).1,
      fun e he r hr => (hrelations r ⟨e, he, hr⟩).2⟩

/-- Entities that differ in the order of their relations have the same names, and the same
relations in another order. -/
theorem map_name_of_sameUpToOrder {es es' : List Entity}
    (h : List.Forall₂ Entity.SameUpToOrder es es') :
    es'.map Entity.name = es.map Entity.name ∧
      (es'.flatMap Entity.relations).Perm (es.flatMap Entity.relations) := by
  induction h with
  | nil => exact ⟨rfl, .refl _⟩
  | cons he _ ih =>
    obtain ⟨rs, hrs, rfl⟩ := he
    obtain ⟨hnames, hrelations⟩ := ih
    rw [List.map_cons, List.map_cons, List.flatMap_cons, List.flatMap_cons, hnames]
    exact ⟨rfl, hrs.append hrelations⟩

/-- **Soundness knows no order**, neither of the entities nor of their relations. -/
theorem SameUpToOrder.sound_iff (h : c.SameUpToOrder c') : c'.Sound ↔ c.Sound := by
  obtain ⟨hkeys, es, hperm, hes⟩ := h
  obtain ⟨hnames, hrelations⟩ := map_name_of_sameUpToOrder hes
  have hnames : (c'.entities.map Entity.name).Perm (c.entities.map Entity.name) := by
    rw [hnames]
    exact hperm.map Entity.name
  have hrelations : (c'.entities.flatMap Entity.relations).Perm
      (c.entities.flatMap Entity.relations) :=
    hrelations.trans (hperm.flatMap_right Entity.relations)
  simp only [Configuration.sound_iff, hkeys, hnames.nodup_iff, hnames.mem_iff,
    hrelations.mem_iff]

/-! ### The three passes -/

/-- The first pass finds no name that was seen before exactly if there is none. -/
theorem duplicate?_eq_none_iff {seen : List String} {es : List Entity} :
    duplicate? seen es = none ↔
      (es.Pairwise fun e e' => e.name ≠ e'.name) ∧ ∀ e ∈ es, e.name ∉ seen := by
  induction es generalizing seen with
  | nil => simp [duplicate?]
  | cons e es ih =>
    rw [duplicate?, List.contains_eq_mem]
    by_cases hseen : e.name ∈ seen
    · simp [hseen]
    · simp only [hseen, decide_false, Bool.false_eq_true, if_false, ih, List.pairwise_cons,
        List.mem_cons, not_or, forall_eq_or_imp, not_false_eq_true, true_and]
      constructor
      · rintro ⟨hes, hnew⟩
        exact ⟨⟨fun e' he' heq => (hnew e' he').1 heq.symm, hes⟩, fun e' he' => (hnew e' he').2⟩
      · rintro ⟨⟨he, hes⟩, hnew⟩
        exact ⟨hes, fun e' he' => ⟨fun heq => he e' he' heq.symm, hnew e' he'⟩⟩

/-- The second pass writes every entity under its name, where the names are different and new. -/
theorem perm_entries_foldl {es : List Entity} {d : Dict Entity}
    (hes : es.Pairwise fun e e' => e.name ≠ e'.name) (hd : ∀ e ∈ es, e.name ∉ d.keys) :
    (es.foldl (fun d e => d.insert e.name e) d).entries.Perm
      (es.map (fun e => (e.name, e)) ++ d.entries) := by
  induction es generalizing d with
  | nil => exact .refl _
  | cons e es ih =>
    obtain ⟨he, hes⟩ := List.pairwise_cons.mp hes
    have hnew : ∀ e' ∈ es, e'.name ∉ (d.insert e.name e).keys := by
      intro e' he' hmem
      rcases Dict.mem_keys_insert.mp hmem with heq | hmem
      · exact he e' he' heq.symm
      · exact hd e' (List.mem_cons_of_mem _ he') hmem
    rw [List.foldl_cons, List.map_cons, List.cons_append]
    exact (ih hes hnew).trans
      (((Dict.perm_entries_insert (hd e List.mem_cons_self) e).append_left _).trans
        List.perm_middle)

section Distinct

variable (h : c.entities.Pairwise fun e e' => e.name ≠ e'.name)
include h

/-- **The table of a configuration whose entities have different names** has each of them under its
name and nothing else. -/
theorem perm_entries_uncheckedCatalog :
    c.uncheckedCatalog.entities.entries.Perm (c.entities.map fun e => (e.name, e)) := by
  -- nothing is in the table at first, so no name is there yet
  have hperm := perm_entries_foldl (d := Dict.empty) h fun _ _ => List.not_mem_nil
  rwa [show (Dict.empty : Dict Entity).entries = [] from rfl, List.append_nil] at hperm

/-- Its values are the entities. -/
theorem perm_values_uncheckedCatalog :
    c.uncheckedCatalog.entities.values.Perm c.entities := by
  have hperm := (perm_entries_uncheckedCatalog h).map Prod.snd
  rwa [List.map_map, show Prod.snd ∘ (fun e : Entity => (e.name, e)) = id from rfl,
    List.map_id] at hperm

/-- A name leads to the entity that goes by it. -/
theorem entity?_uncheckedCatalog {name : String} {e : Entity} :
    c.uncheckedCatalog.entity? name = some e ↔ c.Names name e := by
  rw [Catalog.entity?, Dict.get?_eq_some_iff, (perm_entries_uncheckedCatalog h).mem_iff, Names]
  simp only [List.mem_map, Prod.mk.injEq]
  constructor
  · rintro ⟨e', he', rfl, rfl⟩
    exact ⟨he', rfl⟩
  · rintro ⟨he, rfl⟩
    exact ⟨e, he, rfl, rfl⟩

/-- There are as many entities in the table as in the configuration. -/
theorem entityCount_uncheckedCatalog :
    c.uncheckedCatalog.entityCount = c.entities.length := by
  rw [Catalog.entityCount, Dict.size, (perm_entries_uncheckedCatalog h).length_eq,
    List.length_map]

/-- **The third pass finds no fault exactly if the references hold**, in whatever order the table
hands out its entities. -/
theorem faultIn?_uncheckedCatalog {es : List Entity}
    (hes : es.Perm c.uncheckedCatalog.entities.values) :
    c.uncheckedCatalog.faultIn? es = none ↔ c.Sound := by
  have hmem : ∀ e, e ∈ es ↔ e ∈ c.entities := fun e =>
    (hes.trans (perm_values_uncheckedCatalog h)).mem_iff
  have hkind : ∀ r : Relation, r.kind.isManyToMany = true ↔ r.kind = .belongsToMany := by
    intro r
    cases r.kind <;> simp [RelationKind.isManyToMany]
  simp only [Catalog.faultIn?_eq_none_iff, entity?_uncheckedCatalog h, hmem, hkind]
  constructor
  · rintro ⟨hkeys, hrelations⟩
    exact ⟨h, hkeys, fun e he r hr => (hrelations e he r hr).1,
      fun e he r hr => (hrelations e he r hr).2⟩
  · intro hs
    exact ⟨hs.exposes, fun e he r hr => ⟨hs.leads e he r hr, hs.pivots e he r hr⟩⟩

end Distinct

/-! ### Acceptance -/

/-- **A configuration is accepted exactly if it is sound**, and then its catalog is the one made of
it, in whatever order the table hands out its entities. -/
theorem catalogIn_eq_ok_iff {es : List Entity}
    (hes : es.Perm c.uncheckedCatalog.entities.values) {catalog : Catalog} :
    c.catalogIn es = .ok catalog ↔ c.Sound ∧ catalog = c.uncheckedCatalog := by
  unfold catalogIn
  rcases hd : duplicate? [] c.entities with _ | name
  · -- the table is only known once the names are known to be different
    have hdistinct := (duplicate?_eq_none_iff.mp hd).1
    rw [← faultIn?_uncheckedCatalog hdistinct hes, Catalog.checkIn]
    rcases c.uncheckedCatalog.faultIn? es with _ | fault <;> simp [eq_comm]
  · have hfails : ¬c.Sound := fun hs => by
      have hnone := duplicate?_eq_none_iff.mpr ⟨hs.distinct, fun e _ => List.not_mem_nil⟩
      simp [hd] at hnone
    simp [hfails]

theorem catalog_eq_ok_iff {catalog : Catalog} :
    c.catalog = .ok catalog ↔ c.Sound ∧ catalog = c.uncheckedCatalog :=
  catalogIn_eq_ok_iff (.refl _)

theorem exists_catalogIn_iff {es : List Entity}
    (hes : es.Perm c.uncheckedCatalog.entities.values) :
    (∃ catalog, c.catalogIn es = .ok catalog) ↔ c.Sound := by
  simp only [catalogIn_eq_ok_iff hes, exists_and_left, exists_eq, and_true]

theorem exists_catalog_iff : (∃ catalog, c.catalog = .ok catalog) ↔ c.Sound :=
  exists_catalogIn_iff (.refl _)

/-- What a configuration is refused for is a fault of it. -/
theorem config_of_catalog_error {fault : SearchError} (h : c.catalog = .error fault) :
    ∃ f, fault = .config f := by
  rw [catalog_eq_catalogIn, catalogIn, Catalog.checkIn] at h
  rcases hd : duplicate? [] c.entities with _ | name
  · rcases hf : c.uncheckedCatalog.faultIn? c.uncheckedCatalog.entities.values with _ | f
    · simp [hd, hf] at h
    · simp only [hd, hf] at h
      exact ⟨f, (Except.error.inj h).symm⟩
  · simp only [hd] at h
    exact ⟨.duplicateEntity name, (Except.error.inj h).symm⟩

/-- A search key leads to the entity that goes by the name under it. -/
theorem resolve?_uncheckedCatalog (h : c.entities.Pairwise fun e e' => e.name ≠ e'.name)
    {key : String} {e : Entity} :
    c.uncheckedCatalog.resolve? key = some e ↔
      ∃ name, c.searchModels.get? key = some name ∧ c.Names name e := by
  simp only [Catalog.resolve?, Option.bind_eq_some_iff, entity?_uncheckedCatalog h,
    show c.uncheckedCatalog.searchKeys = c.searchModels from rfl]

/-- The search keys of a configuration are those of its catalog. -/
theorem mem_keys_uncheckedCatalog {key : String} :
    key ∈ c.uncheckedCatalog.keys ↔ ∃ name, c.searchModels.get? key = some name := by
  rw [Catalog.keys, ← Dict.contains_iff_mem_keys, Dict.contains, Option.isSome_iff_exists]
  rfl

/-- **Acceptance is exact and knows no order.** A configuration is accepted if its entities have
different names, its search keys and relations lead to entities, and its relations between many and
many have their pivot tables; otherwise it is refused for a fault of the configuration. Neither the
order of the entities and relations nor that in which the table hands out its entities makes a
difference to that. The catalog of an accepted configuration has the entities under their names and
nothing else, lists the search keys sorted, and each of them leads to the entity named under it. -/
theorem accepted_exactly (c : Configuration) :
    ((∃ catalog, c.catalog = .ok catalog) ↔ c.Sound) ∧
    (∀ fault, c.catalog = .error fault → ∃ f, fault = .config f) ∧
    (∀ c', c.SameUpToOrder c' →
      ((∃ catalog, c'.catalog = .ok catalog) ↔ ∃ catalog, c.catalog = .ok catalog)) ∧
    (∀ es, es.Perm c.uncheckedCatalog.entities.values →
      ((∃ catalog, c.catalogIn es = .ok catalog) ↔ ∃ catalog, c.catalog = .ok catalog)) ∧
    ∀ catalog, c.catalog = .ok catalog →
      (∀ name e, catalog.entity? name = some e ↔ c.Names name e) ∧
      catalog.entityCount = c.entities.length ∧
      (catalog.keys.Pairwise (· < ·) ∧
        ∀ key, key ∈ catalog.keys ↔ ∃ name, c.searchModels.get? key = some name) ∧
      ∀ key e, catalog.resolve? key = some e ↔
        ∃ name, c.searchModels.get? key = some name ∧ c.Names name e := by
  refine ⟨exists_catalog_iff, fun fault => config_of_catalog_error, fun c' hc' => ?_,
    fun es hes => ?_, fun catalog hcatalog => ?_⟩
  · rw [exists_catalog_iff, exists_catalog_iff, hc'.sound_iff]
  · rw [exists_catalogIn_iff hes, exists_catalog_iff]
  · obtain ⟨hsound, rfl⟩ := catalog_eq_ok_iff.mp hcatalog
    exact ⟨fun name e => entity?_uncheckedCatalog hsound.distinct,
      entityCount_uncheckedCatalog hsound.distinct,
      ⟨Dict.keys_sorted _, fun key => mem_keys_uncheckedCatalog⟩,
      fun key e => resolve?_uncheckedCatalog hsound.distinct⟩

end Configuration

/-! ### Two entities that refer to each other -/

namespace Shelf

/-- Authors, with their books and the one they wrote first. -/
def author : Entity :=
  ((Entity.ofTable "Author" "authors").addRelation
    (.hasMany "books" "Book" "author_id" "id")).addRelation
    (.hasOne "debut" "Book" "debut_of" "id")

/-- Books, with their author. -/
def book : Entity :=
  (Entity.ofTable "Book" "books").addRelation (.belongsTo "author" "Author" "author_id" "id")

/-- Authors come before books, and may be searched. -/
def configuration : Configuration := ⟨Dict.ofList [("author", "Author")], [author, book], .drop⟩

/-- Books come before authors, and debuts before books. -/
def reversed : Configuration :=
  ⟨Dict.ofList [("author", "Author")],
    [book, { author with relations := author.relations.reverse }], .drop⟩

/-- The two differ in order only. -/
theorem sameUpToOrder : configuration.SameUpToOrder reversed :=
  ⟨rfl, [book, author], .swap author book [],
    .cons ⟨book.relations, .refl _, rfl⟩
      (.cons ⟨author.relations.reverse, List.reverse_perm _, rfl⟩ .nil)⟩

end Shelf

/-- The theorem at authors and books: both orders are accepted, and authors are found by name and by
key. -/
theorem Configuration.accepted_exactly_shelf :
    (∃ catalog, Shelf.configuration.catalog = .ok catalog ∧
      catalog.entity? "Author" = some Shelf.author ∧ catalog.entityCount = 2 ∧
      catalog.resolve? "author" = some Shelf.author) ∧
    ∃ catalog, Shelf.reversed.catalog = .ok catalog := by
  have haccepted : ∃ catalog, Shelf.configuration.catalog = .ok catalog := ⟨_, rfl⟩
  have hauthor : Shelf.configuration.Names "Author" Shelf.author := ⟨List.mem_cons_self, rfl⟩
  obtain ⟨-, -, horder, -, hcatalog⟩ := Configuration.accepted_exactly Shelf.configuration
  refine ⟨?_, (horder Shelf.reversed Shelf.sameUpToOrder).mpr haccepted⟩
  obtain ⟨catalog, h⟩ := haccepted
  obtain ⟨hentity, hcount, -, hresolve⟩ := hcatalog catalog h
  exact ⟨catalog, h, (hentity _ _).mpr hauthor, hcount, (hresolve _ _).mpr ⟨_, rfl, hauthor⟩⟩

end DottedQuery
