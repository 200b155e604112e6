import DottedQuery.Proofs.Search.Route
import DottedQuery.Search.Joins

/-!
# Chains of joins

The joins of an order are taken apart in the same way as the sub-queries of a filter. The
relations of its path are resolved first, to a **chain** (`DottedQuery.OrderPath.chain`), where
everything that can be refused is refused; what remains is to write the joins of a chain for a
supply of aliases (`DottedQuery.OrderPath.chainJoins`).

The compiler keeps a table of the latest alias of every table it has joined and starts each
relation from the alias it finds there. There is nothing to look up, though: a relation starts from
the alias of the join before it, and the first one from the root. That is shown first, of a walk
without the table (`DottedQuery.OrderPath.joins_eq_joinsFrom`), and then the walk is taken apart
(`DottedQuery.OrderPath.joins_eq`).
-/

namespace DottedQuery

namespace Relation

/-- The conditions of a join of the related table, for a relation that needs no pivot table. -/
def joinOn (r : Relation) (parent label : String) : List Condition :=
  .and (match r.kind with
    | .belongsTo => .columnsEq (.named label r.ownerKey) (.named parent r.foreignKey)
    | _ => .columnsEq (.named parent r.ownerKey) (.named label r.foreignKey)) ::
  r.constraintConditions label

/-- Only the kind of a relation decides whether it can be joined. -/
theorem joinConditions_eq (r : Relation) (parent label : String) :
    r.joinConditions parent label =
      if r.kind.isManyToMany then .error (.unjoinable r.name r.kind)
      else .ok (r.joinOn parent label) := by
  unfold joinConditions joinOn
  cases r.kind <;> rfl

end Relation

namespace OrderPath

/-! ### The chain of an order -/

/-- A relation of an order and the entity it leads to. -/
abbrev Link := Relation × Entity

/-- One relation of an order, with everything that can be refused about it. -/
def link (catalog : Catalog) (field : String) (entity : Entity) (name : String) (last : Bool) :
    Except SearchError Link :=
  match hop catalog field entity name last with
  | .error fault => .error fault
  | .ok l =>
    if l.1.kind.isManyToMany then .error (.unjoinable l.1.name l.1.kind) else .ok l

/-- **The chain of an order**: its relations from an entity on, resolved against the catalog. -/
def chain (catalog : Catalog) (field : String) :
    List String → Entity → Except SearchError (List Link)
  | [], _ => .ok []
  | name :: rest, entity =>
    match link catalog field entity name rest.isEmpty with
    | .error fault => .error fault
    | .ok l => (chain catalog field rest l.2).map (l :: ·)

/-- A chain has one link for every relation. -/
theorem length_of_chain {catalog : Catalog} {field : String} {names : List String}
    {entity : Entity} {links : List Link} (h : chain catalog field names entity = .ok links) :
    links.length = names.length := by
  induction names generalizing entity links with
  | nil => simp [← Except.ok.inj h]
  | cons name rest ih =>
    simp only [chain] at h
    split at h
    · simp at h
    · next l hl =>
      obtain ⟨links', hc, rfl⟩ := map_eq_ok_iff.mp h
      rw [List.length_cons, List.length_cons, ih hc]

/-! ### What a chain is written as -/

/-- The joins of a chain, the first of which starts from a table that goes by `parent`. -/
def chainJoins : List Link → String → AliasSupply → List Join
  | [], _, _ => []
  | l :: links, parent, supply =>
    ⟨.left, ⟨l.2.table, some supply.current⟩, l.1.joinOn parent supply.current⟩ ::
      chainJoins links supply.current supply.taken

/-- The name that the last table of a chain goes by. -/
def chainEnd : List Link → String → AliasSupply → String
  | [], parent, _ => parent
  | _ :: links, _, supply => chainEnd links supply.current supply.taken

/-! ### The joins without the table -/

/-- **The joins of an order, followed without a table of aliases**: the first relation starts from
a table that goes by `parent`, and every other one from the table that has just been joined. -/
def joinsFrom (catalog : Catalog) (field : String) :
    List String → Entity → String → AliasSupply → Except SearchError Joined
  | [], _, parent, supply => .ok ⟨[], parent, supply⟩
  | name :: rest, entity, parent, supply =>
    match hop catalog field entity name rest.isEmpty with
    | .error e => .error e
    | .ok (relation, related) =>
      match relation.joinConditions parent supply.current with
      | .error e => .error e
      | .ok on =>
        match joinsFrom catalog field rest related supply.current supply.taken with
        | .error e => .error e
        | .ok joined =>
          .ok { joined with
            joins := ⟨.left, ⟨related.table, some supply.current⟩, on⟩ :: joined.joins }

/-- A table that has just been joined goes by its alias. -/
theorem latest_insert (aliases : Dict String) (table label : String) :
    latest (aliases.insert table label) table = label := by
  simp [latest, Dict.get?_insert]

/-- **The table of aliases is not needed**: all that is ever read from it is what the table of the
entity at hand goes by, and that is the alias written last, whatever the path has joined before. -/
theorem joins_eq_joinsFrom (catalog : Catalog) (field : String) (names : List String)
    (entity : Entity) (aliases : Dict String) (supply : AliasSupply) :
    joins catalog field names entity aliases supply =
      joinsFrom catalog field names entity (latest aliases entity.table) supply := by
  -- the path may be anywhere in the catalog, and the table may hold any aliases
  induction names generalizing entity aliases supply with
  | nil => rfl
  | cons name rest ih =>
    rw [joins, joinsFrom]
    cases hop catalog field entity name rest.isEmpty with
    | error fault => rfl
    | ok l =>
      have hnext : joins catalog field rest l.2 (aliases.insert l.2.table supply.current)
          supply.taken = joinsFrom catalog field rest l.2 supply.current supply.taken := by
        rw [ih, latest_insert]
      cases hon : l.1.joinConditions (latest aliases entity.table) supply.current with
      | error fault => simp only [hon]
      | ok on =>
        cases hrest : joinsFrom catalog field rest l.2 supply.current supply.taken with
        | error fault => simp only [hon, hnext, hrest]
        | ok joined => simp only [hon, hnext, hrest]

/-! ### The joins follow the chain -/

/-- The joins of an order are those of its chain, written from the same parent. -/
theorem joinsFrom_eq (catalog : Catalog) (field : String) (names : List String) (entity : Entity)
    (parent : String) (supply : AliasSupply) :
    joinsFrom catalog field names entity parent supply =
      (chain catalog field names entity).map fun links =>
        ⟨chainJoins links parent supply, chainEnd links parent supply,
          supply.after links.length⟩ := by
  induction names generalizing entity parent supply with
  | nil => rfl
  | cons name rest ih =>
    simp only [joinsFrom, chain, link]
    cases hop catalog field entity name rest.isEmpty with
    | error fault => rfl
    | ok l =>
      simp only [Relation.joinConditions_eq]
      cases hk : l.1.kind.isManyToMany with
      | true => rfl
      | false =>
        simp only [Bool.false_eq_true, if_false, ih]
        cases chain catalog field rest l.2 with
        | error fault => rfl
        | ok links =>
          simp only [Except.map, List.length_cons, AliasSupply.after_taken]
          rfl

/-- **The table of aliases is a plain chain**: the joins of an order are those of its chain, each
starting from the join before it, whatever tables the path visits or revisits. -/
theorem joins_eq (catalog : Catalog) (field : String) (names : List String) (entity : Entity)
    (aliases : Dict String) (supply : AliasSupply) :
    joins catalog field names entity aliases supply =
      (chain catalog field names entity).map fun links =>
        ⟨chainJoins links (latest aliases entity.table) supply,
          chainEnd links (latest aliases entity.table) supply, supply.after links.length⟩ := by
  rw [joins_eq_joinsFrom, joinsFrom_eq]

/-! ### Orders -/

/-- The chain of an order, which is empty for a field of the root. -/
def links (catalog : Catalog) (root : Entity) (order : OrderPath) :
    Except SearchError (List Link) :=
  if order.path.isRelational then chain catalog order.path.field order.path.relations root
  else if root.isHidden order.path.field then .error (.denied root.name order.path.field)
  else .ok []

/-- Orders have one link for every relation of their path. -/
theorem length_of_links {catalog : Catalog} {root : Entity} {order : OrderPath} {ls : List Link}
    (h : links catalog root order = .ok ls) : ls.length = order.path.relations.length := by
  unfold links at h
  split at h
  · exact length_of_chain h
  · next hrel =>
    have hnil : order.path.relations = [] := by
      simpa [FieldPath.isRelational] using hrel
    split at h
    · simp at h
    · rw [hnil, ← Except.ok.inj h]
      rfl

/-- A query with the joins and the term of an order, whose chain starts from a table that goes by
`parent`. -/
def addLinks (order : OrderPath) (ls : List Link) (parent : String) (q : Select)
    (supply : AliasSupply) : Select :=
  (q.addJoins (chainJoins ls parent supply)).addOrder
    (.named (chainEnd ls parent supply) order.path.field) order.direction

/-- **Ordering is the chain, written out.** -/
theorem apply_eq (catalog : Catalog) (root : Entity) (order : OrderPath) (q : Select)
    (supply : AliasSupply) :
    order.apply catalog root q supply =
      (order.links catalog root).map fun ls =>
        (order.addLinks ls root.table q supply, supply.after ls.length) := by
  simp only [apply, links]
  split
  · rw [joins_eq]
    cases chain catalog order.path.field order.path.relations root with
    | error fault => rfl
    | ok ls => rfl
  · split
    · rfl
    · simp only [Except.map, addLinks, chainJoins, chainEnd, Select.addJoins, List.append_nil]
      rfl

end OrderPath

end DottedQuery
