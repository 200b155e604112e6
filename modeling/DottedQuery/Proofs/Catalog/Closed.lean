import DottedQuery.Catalog.Configuration
import DottedQuery.Proofs.Catalog.Names

/-!
# Catalogs without dangling references

`DottedQuery.Catalog.check` looks for the first fault in the references of a catalog. This file
says what is known of a catalog in which it finds none: the catalog is **closed**
(`DottedQuery.Catalog.Closed`), so whatever a search key or a relation refers to is there, and the
related rows of every relation can be asked for. Configurations that are accepted have closed
catalogs (`DottedQuery.Configuration.closed_of_catalog`).
-/

namespace DottedQuery

/-- Only a relation that lacks the pivot table it goes through has no sub-query. -/
theorem Relation.existsQuery_of_pivot {r : Relation}
    (h : r.kind.isManyToMany = true → ∃ p, r.pivot = some p) (parentTable relatedTable : String) :
    ∃ rows, r.existsQuery parentTable relatedTable = .ok rows := by
  unfold existsQuery
  cases hk : r.kind.isManyToMany with
  | false => exact ⟨_, rfl⟩
  | true =>
    obtain ⟨p, hp⟩ := h hk
    simp only [if_true, hp]
    exact ⟨_, rfl⟩

namespace Catalog

/-- Whether an entity is one of those that names lead to. -/
def Has (catalog : Catalog) (e : Entity) : Prop := ∃ name, catalog.entity? name = some e

/-- **Everything that a catalog refers to is there.** -/
structure Closed (catalog : Catalog) : Prop where
  /-- Search keys lead to entities. -/
  resolves : ∀ key ∈ catalog.keys, ∃ e, catalog.resolve? key = some e
  /-- So do relations. -/
  leads : ∀ e, catalog.Has e → ∀ r ∈ e.relations, ∃ related, catalog.entity? r.related = some related
  /-- Relations between many and many have their pivot table. -/
  pivots : ∀ e, catalog.Has e → ∀ r ∈ e.relations, r.kind.isManyToMany = true →
    ∃ p, r.pivot = some p

variable {catalog : Catalog}

/-- The relations of a closed catalog have their sub-queries. -/
theorem Closed.existsQuery (h : catalog.Closed) {e : Entity} (he : catalog.Has e) {r : Relation}
    (hr : r ∈ e.relations) (parentTable relatedTable : String) :
    ∃ rows, r.existsQuery parentTable relatedTable = .ok rows :=
  Relation.existsQuery_of_pivot (h.pivots e he r hr) parentTable relatedTable

/-! ### The check finds every fault -/

/-- A search key is at fault unless it leads to an entity. -/
theorem keyFault?_eq_none_iff {key name : String} :
    catalog.keyFault? key name = none ↔ ∃ e, catalog.entity? name = some e := by
  have hcontains : catalog.entities.contains name = (catalog.entity? name).isSome := rfl
  rw [keyFault?, hcontains]
  rcases catalog.entity? name with _ | e <;> simp

/-- A relation is at fault unless it leads to an entity and has the pivot table it goes through. -/
theorem relationFault?_eq_none_iff {e : Entity} {r : Relation} :
    catalog.relationFault? e r = none ↔
      (∃ related, catalog.entity? r.related = some related) ∧
        (r.kind.isManyToMany = true → ∃ p, r.pivot = some p) := by
  have hcontains : catalog.entities.contains r.related = (catalog.entity? r.related).isSome := rfl
  rw [relationFault?, hcontains]
  rcases catalog.entity? r.related with _ | related
  · simp
  · rcases r.kind.isManyToMany with _ | _ <;> rcases r.pivot with _ | p <;> simp

/-- A catalog passes if nothing is at fault. -/
theorem check_eq_ok_iff : catalog.check = .ok () ↔ catalog.fault? = none := by
  unfold check
  rcases catalog.fault? with _ | fault <;> simp

/-- **A catalog that passes its check is closed.** -/
theorem closed_of_check (h : catalog.check = .ok ()) : catalog.Closed := by
  have hfault : catalog.fault? = none := check_eq_ok_iff.mp h
  simp only [fault?, Option.or_eq_none_iff, List.findSome?_eq_none_iff] at hfault
  obtain ⟨hkeys, hrelations⟩ := hfault
  have hrelation : ∀ e, catalog.Has e → ∀ r ∈ e.relations, catalog.relationFault? e r = none :=
    fun e ⟨_, he⟩ => hrelations e (Dict.mem_values_of_get? he)
  refine ⟨fun key hkey => ?_, fun e he r hr => ?_, fun e he r hr => ?_⟩
  · obtain ⟨name, hname⟩ := Option.isSome_iff_exists.mp (Dict.contains_iff_mem_keys.mpr hkey)
    obtain ⟨entry, hentry, rfl⟩ := List.mem_map.mp (Dict.mem_values_of_get? hname)
    obtain ⟨e, he⟩ := keyFault?_eq_none_iff.mp (hkeys entry hentry)
    exact ⟨e, Option.bind_eq_some_iff.mpr ⟨_, hname, he⟩⟩
  · exact (relationFault?_eq_none_iff.mp (hrelation e he r hr)).1
  · exact (relationFault?_eq_none_iff.mp (hrelation e he r hr)).2

end Catalog

/-- **An accepted configuration has a closed catalog.** -/
theorem Configuration.closed_of_catalog {c : Configuration} {catalog : Catalog}
    (h : c.catalog = .ok catalog) : catalog.Closed := by
  unfold Configuration.catalog at h
  split at h
  · simp at h
  · split at h
    · simp at h
    · next hcheck =>
      rw [← Except.ok.inj h]
      exact Catalog.closed_of_check hcheck

end DottedQuery
