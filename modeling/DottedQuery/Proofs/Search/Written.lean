import DottedQuery.Proofs.Search.Admission
import DottedQuery.Proofs.Search.Items

/-!
# The query that is returned

A request that compiles returns the query of its last item, written from the plan of that item
with the aliases that the items before it have left (`DottedQuery.Searcher.written_of_compile`).
What is proved about the queries of plans is thereby a statement about requests.

A plan that knows an order contains the plan without it (`DottedQuery.Plan.unordered`): the entity
and the clauses are the same. A request that compiles with an order therefore compiles without
one, and the two queries have their source and their conditions in common
(`DottedQuery.Searcher.compile_none_of_compile`). The order itself is a chain of relations that
the catalog has (`DottedQuery.Catalog.Follows`).
-/

namespace DottedQuery

/-! ### The relations of an order -/

/-- The links that the names of relations stand for, one after another from an entity on. None of
them goes through a pivot table. -/
inductive Catalog.Follows (catalog : Catalog) :
    Entity → List String → List OrderPath.Link → Prop
  /-- Nothing is followed. -/
  | nil (e : Entity) : Follows catalog e [] []
  /-- A relation is followed, and others from the entity it leads to. -/
  | cons {e : Entity} {name : String} {names : List String} {l : OrderPath.Link}
      {links : List OrderPath.Link} (relation : e.relation? name = some l.1)
      (related : catalog.entity? l.1.related = some l.2) (joinable : l.1.through? = none)
      (rest : Follows catalog l.2 names links) : Follows catalog e (name :: names) (l :: links)

/-- Only relations between many and many go through a pivot table. -/
theorem Relation.through?_of_kind_ne {r : Relation} (h : r.kind ≠ .belongsToMany) :
    r.through? = none := by
  unfold through?
  cases hk : r.kind with
  | belongsToMany => exact absurd hk h
  | belongsTo | hasOne | hasMany => rfl

namespace OrderPath

variable {catalog : Catalog} {field : String}

/-- A chain begins with the link of its first relation, which does not go through a pivot table. -/
theorem chain_cons_cases {name : String} {names : List String} {e : Entity} {links : List Link}
    (h : chain catalog field (name :: names) e = .ok links) :
    ∃ l links', links = l :: links' ∧ e.relation? name = some l.1 ∧
      catalog.entity? l.1.related = some l.2 ∧ l.1.kind ≠ .belongsToMany ∧
      chain catalog field names l.2 = .ok links' := by
  simp only [chain] at h
  rcases link_cases catalog field e name names.isEmpty with
    ⟨l, hl, hrel, hent, hpass⟩ | ⟨k, fault, hl, -, -⟩
  · obtain ⟨-, -, relation, related, hrel', -, -, hkind⟩ := passes_iff.mp hpass
    obtain rfl := Option.some.inj (hrel.symm.trans hrel')
    simp only [hl] at h
    obtain ⟨links', hrest, rfl⟩ := map_eq_ok_iff.mp h
    exact ⟨l, links', rfl, hrel, hent, hkind, hrest⟩
  · simp [hl] at h

/-- **A chain follows the relations of its names.** -/
theorem follows_of_chain {names : List String} {e : Entity} {links : List Link}
    (h : chain catalog field names e = .ok links) : catalog.Follows e names links := by
  induction names generalizing e links with
  | nil =>
    rw [chain] at h
    rw [← Except.ok.inj h]
    exact .nil e
  | cons name names ih =>
    obtain ⟨l, links', rfl, hrel, hent, hkind, hrest⟩ := chain_cons_cases h
    exact .cons hrel hent (Relation.through?_of_kind_ne hkind) (ih hrest)

/-- The links of an order are the chain of its relations, also where there are none. -/
theorem chain_of_links {root : Entity} {order : OrderPath} {ls : List Link}
    (h : order.links catalog root = .ok ls) :
    chain catalog order.path.field order.path.relations root = .ok ls := by
  unfold links at h
  split at h
  · exact h
  · next hplain =>
    have hnil : order.path.relations = [] := by simpa [FieldPath.isRelational] using hplain
    split at h
    · simp at h
    · rw [hnil, chain, h]

end OrderPath

namespace Plan

/-- A plan without its order. -/
def unordered (p : Plan) : Plan := { p with order := none }

end Plan

namespace Searcher

variable {s : Searcher}

/-! ### The last plan -/

/-- The last of the plans is that of the last item. -/
theorem last_of_plans {order : Option OrderPath} {start : Nat} {items : List SearchItem}
    {ps : List Plan} {p : Plan} (h : s.plans order start items = .ok (ps ++ [p])) :
    ∃ index item, items.getLast? = some item ∧ s.plan index item order = .ok p := by
  induction items generalizing start ps with
  | nil => simp [plans] at h
  | cons item items ih =>
    obtain ⟨p', ps', heq, hp, hps⟩ := plans_cons_cases h
    rcases ps with _ | ⟨p'', ps⟩
    · -- there is one plan, so there is one item
      obtain ⟨rfl, rfl⟩ : p = p' ∧ [] = ps' := by simpa using heq
      rcases items with _ | ⟨item', items⟩
      · exact ⟨start, item, rfl, hp⟩
      · obtain ⟨_, _, hcons, -, -⟩ := plans_cons_cases hps
        simp at hcons
    · obtain ⟨-, rfl⟩ : p'' = p' ∧ ps ++ [p] = ps' := by simpa using heq
      obtain ⟨index, item', hlast, hplan⟩ := ih hps
      exact ⟨index, item', by simp [List.getLast?_cons, hlast], hplan⟩

/-- **A request that compiles returns the last of its plans, written out.** -/
theorem plans_of_compile {request : SearchRequest} {order : Option OrderPath} {q : Select}
    (h : s.compile request order = .ok q) :
    request.items ≠ [] ∧ ∃ (ps : List Plan) (p : Plan),
      s.plans order 0 request.items = .ok (ps ++ [p]) ∧
      q = p.query ⟨.after .forExists (ps.map Plan.filterAliases).sum,
        .after .forJoins (ps.map Plan.joinAliases).sum⟩ := by
  have hne : request.items ≠ [] := by
    intro hnil
    simp [compile, hnil] at h
  refine ⟨hne, ?_⟩
  rw [compile_eq_of_validated order hne (validate_of_compile h)] at h
  cases hps : s.plans order 0 request.items with
  | error fault => simp [hps, Except.bind] at h
  | ok ps =>
    rcases List.eq_nil_or_concat ps with rfl | ⟨ps, p, rfl⟩
    · simp [hps, Except.bind, Plan.lastQuery] at h
    · simp only [hps, Except.bind, List.concat_eq_append, Plan.lastQuery_append,
        foldl_after] at h
      exact ⟨ps, p, by rw [List.concat_eq_append], (Except.ok.inj h).symm⟩

/-- The query of a request is that of the plan of its last item. -/
theorem written_of_compile {request : SearchRequest} {order : Option OrderPath} {q : Select}
    (h : s.compile request order = .ok q) :
    ∃ (index : Nat) (item : SearchItem) (p : Plan) (filters joins : Nat),
      request.items.getLast? = some item ∧ s.plan index item order = .ok p ∧
      q = p.query ⟨.after .forExists filters, .after .forJoins joins⟩ := by
  obtain ⟨-, ps, p, hps, rfl⟩ := plans_of_compile h
  obtain ⟨index, item, hlast, hplan⟩ := last_of_plans hps
  exact ⟨index, item, p, _, _, hlast, hplan, rfl⟩

/-- What compiles with the order that two parameters ask for compiles with that order. -/
theorem compile_of_compileWith {request : SearchRequest} {orderBy orderAs : Option String}
    {q : Select} (h : s.compileWith request orderBy orderAs = .ok q) :
    ∃ order, OrderPath.ofParams orderBy orderAs = .ok order ∧ s.compile request order = .ok q := by
  unfold compileWith at h
  split at h
  · simp at h
  · next order horder => exact ⟨order, horder, h⟩

/-- The order of a plan is a chain of relations from its entity. -/
theorem chain_of_plan {index : Nat} {item : SearchItem} {order : OrderPath} {p : Plan}
    (h : s.plan index item (some order) = .ok p) :
    ∃ ls, p.order = some (order, ls) ∧
      OrderPath.chain s.catalog order.path.field order.path.relations p.entity = .ok ls := by
  obtain ⟨-, -, horder⟩ := plan_cases h
  obtain ⟨ls, hls, horder⟩ := map_eq_ok_iff.mp horder
  exact ⟨ls, horder.symm, OrderPath.chain_of_links hls⟩

/-- The order of a plan follows the relations of its path. -/
theorem order_of_plan {index : Nat} {item : SearchItem} {order : OrderPath} {p : Plan}
    (h : s.plan index item (some order) = .ok p) :
    ∃ ls, p.order = some (order, ls) ∧
      s.catalog.Follows p.entity order.path.relations ls := by
  obtain ⟨ls, horder, hchain⟩ := chain_of_plan h
  exact ⟨ls, horder, OrderPath.follows_of_chain hchain⟩

/-- The order of a plan is admitted. -/
theorem admitted_of_plan {index : Nat} {item : SearchItem} {order : OrderPath} {p : Plan}
    (h : s.plan index item (some order) = .ok p) : order.Admitted s.catalog p.entity := by
  obtain ⟨-, -, horder⟩ := plan_cases h
  obtain ⟨ls, hls, -⟩ := map_eq_ok_iff.mp horder
  exact OrderPath.links_eq_ok_iff.mp ⟨ls, hls⟩

/-! ### Leaving the order out -/

/-- An item that can be planned with an order can be planned without it. -/
theorem plan_unordered {index : Nat} {item : SearchItem} {order : Option OrderPath} {p : Plan}
    (h : s.plan index item order = .ok p) : s.plan index item none = .ok p.unordered := by
  obtain ⟨hentity, hclauses, -⟩ := plan_cases h
  simp only [plan, hentity, hclauses]
  rfl

theorem plans_unordered {order : Option OrderPath} {start : Nat} {items : List SearchItem}
    {ps : List Plan} (h : s.plans order start items = .ok ps) :
    s.plans none start items = .ok (ps.map Plan.unordered) := by
  induction items generalizing start ps with
  | nil =>
    rw [plans] at h
    rw [← Except.ok.inj h]
    rfl
  | cons item items ih =>
    obtain ⟨p, ps', rfl, hp, hps⟩ := plans_cons_cases h
    rw [plans_cons_eq_bind, plan_unordered hp, ih hps]
    rfl

/-- **What compiles with an order compiles without it**, to a query with the same table and the
same conditions. -/
theorem compile_none_of_compile {request : SearchRequest} {order : Option OrderPath} {q : Select}
    (h : s.compile request order = .ok q) :
    ∃ (index : Nat) (item : SearchItem) (p : Plan) (filters joins joins' : Nat),
      request.items.getLast? = some item ∧ s.plan index item order = .ok p ∧
      q = p.query ⟨.after .forExists filters, .after .forJoins joins⟩ ∧
      s.compile request none =
        .ok (p.unordered.query ⟨.after .forExists filters, .after .forJoins joins'⟩) := by
  have hv := validate_of_compile h
  obtain ⟨hne, ps, p, hps, rfl⟩ := plans_of_compile h
  obtain ⟨index, item, hlast, hplan⟩ := last_of_plans hps
  have hnone : s.plans none 0 request.items =
      .ok (ps.map Plan.unordered ++ [p.unordered]) := by
    rw [plans_unordered hps, List.map_append]
    rfl
  -- a plan takes the same aliases for sub-queries with and without an order
  have hfilters : (ps.map Plan.unordered).map Plan.filterAliases = ps.map Plan.filterAliases := by
    rw [List.map_map]
    rfl
  have hcompile := compile_of_plans hne
    ((s.rules.validate_eq_ok_iff_items request.items).mp hv) none hnone
  rw [hfilters] at hcompile
  exact ⟨index, item, p, _, _, _, hlast, hplan, rfl, hcompile⟩

end Searcher

end DottedQuery
