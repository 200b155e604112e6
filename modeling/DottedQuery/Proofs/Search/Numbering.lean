import DottedQuery.Proofs.Search.Written
import Mathlib.Data.List.Nodup

/-!
# Aliases are numbered without gaps

A request takes its aliases from two supplies, one for sub-queries and one for joined tables. This
file says which aliases those are. The sub-queries of a query are read in **pre-order**, each before
those inside it (`DottedQuery.Select.allSubqueries`); read so, their aliases are consecutive, and
so are those of the tables that an order joins. The query that is returned goes on from where the
items before it have stopped, so no two tables of a whole request share an alias
(`DottedQuery.Searcher.labels_of_compile`).

A level takes its alias before the levels inside it do and is added to its query after them. That
the numbers nevertheless follow the pre-order is a matter of the nested levels of one clause
(`DottedQuery.Filter.Clause.labels_nested`); a clause that is cut or dropped takes none.
-/

namespace DottedQuery

/-! ### The next aliases of a supply -/

namespace AliasSupply

/-- The next aliases of a supply, as many as are asked for. -/
def issue (a : AliasSupply) (k : Nat) : List String := (List.range' a.next k).map (name a.stem)

theorem issue_succ (a : AliasSupply) (k : Nat) :
    a.issue (k + 1) = a.current :: a.taken.issue k := by
  rw [issue, List.range'_succ, List.map_cons]
  rfl

/-- Some aliases and then some more are consecutive. -/
theorem issue_add (a : AliasSupply) (j k : Nat) :
    a.issue (j + k) = a.issue j ++ (a.after j).issue k := by
  rw [issue, ← List.range'_append_1, List.map_append]
  rfl

/-- A supply gives no alias twice. -/
theorem nodup_issue (a : AliasSupply) (k : Nat) : (a.issue k).Nodup :=
  List.Nodup.map (fun _ _ h => name_inj.mp h) List.nodup_range'

/-- Supplies with the two stems have no alias in common. -/
theorem disjoint_issue {a b : AliasSupply} (ha : a.stem = existsStem) (hb : b.stem = joinStem)
    (j k : Nat) : (a.issue j).Disjoint (b.issue k) := by
  intro label hj hk
  obtain ⟨m, -, rfl⟩ := List.mem_map.mp hj
  obtain ⟨n, -, hn⟩ := List.mem_map.mp hk
  rw [ha, hb] at hn
  exact name_joinStem_ne n m hn

end AliasSupply

/-! ### Sub-queries in pre-order -/

mutual

/-- **The sub-queries of a query**, at any depth: those of joined tables and then those of its
conditions, each before the ones inside it. -/
def Select.allSubqueries : Select → List Select
  | ⟨_, _, joins, wheres, _⟩ => subqueriesOfJoins joins ++ subqueriesOfConditions wheres

/-- The sub-queries of joined tables. -/
def subqueriesOfJoins : List Join → List Select
  | [] => []
  | j :: js => j.allSubqueries ++ subqueriesOfJoins js

/-- The sub-queries of a joined table. -/
def Join.allSubqueries : Join → List Select
  | ⟨_, _, on⟩ => subqueriesOfConditions on

/-- The sub-queries of conditions. -/
def subqueriesOfConditions : List Condition → List Select
  | [] => []
  | c :: cs => c.allSubqueries ++ subqueriesOfConditions cs

/-- The sub-queries of a condition. -/
def Condition.allSubqueries : Condition → List Select
  | ⟨_, p⟩ => p.allSubqueries

/-- The sub-queries of a predicate. -/
def Predicate.allSubqueries : Predicate → List Select
  | .compare .. => []
  | .inSet .. => []
  | .columns .. => []
  | .exists sub => sub :: sub.allSubqueries

end

mutual

/-- **None is left out**: there are as many as are counted. -/
theorem Select.length_allSubqueries : ∀ q : Select, q.allSubqueries.length = q.existsNodes
  | ⟨_, _, joins, wheres, _⟩ => by
    rw [Select.allSubqueries, List.length_append, length_subqueriesOfJoins joins,
      length_subqueriesOfConditions wheres, Select.existsNodes]

theorem length_subqueriesOfJoins : ∀ js : List Join,
    (subqueriesOfJoins js).length = existsNodesOfJoins js
  | [] => rfl
  | ⟨_, _, on⟩ :: js => by
    rw [subqueriesOfJoins, List.length_append, Join.allSubqueries,
      length_subqueriesOfConditions on, length_subqueriesOfJoins js, existsNodesOfJoins,
      Join.existsNodes]

theorem length_subqueriesOfConditions : ∀ cs : List Condition,
    (subqueriesOfConditions cs).length = existsNodesOfConditions cs
  | [] => rfl
  | ⟨_, p⟩ :: cs => by
    rw [subqueriesOfConditions, List.length_append, Condition.allSubqueries,
      p.length_allSubqueries, length_subqueriesOfConditions cs, existsNodesOfConditions,
      Condition.existsNodes]

theorem Predicate.length_allSubqueries : ∀ p : Predicate,
    p.allSubqueries.length = p.existsNodes
  | .compare .. => rfl
  | .inSet .. => rfl
  | .columns .. => rfl
  | .exists sub => by
    rw [Predicate.allSubqueries, List.length_cons, sub.length_allSubqueries,
      Predicate.existsNodes]

end

theorem subqueriesOfConditions_append (cs ds : List Condition) :
    subqueriesOfConditions (cs ++ ds) =
      subqueriesOfConditions cs ++ subqueriesOfConditions ds := by
  induction cs with
  | nil => rfl
  | cons c cs ih =>
    rw [List.cons_append, subqueriesOfConditions, subqueriesOfConditions, ih, List.append_assoc]

namespace Select

/-- A further condition comes last in pre-order. -/
theorem allSubqueries_addPredicate? (q : Select) (c : Combinator) (p : Option Predicate) :
    (q.addPredicate? c p).allSubqueries =
      q.allSubqueries ++ p.elim [] Predicate.allSubqueries := by
  obtain ⟨ps, s, js, ws, os⟩ := q
  cases p with
  | none => exact (List.append_nil _).symm
  | some p =>
    simp only [addPredicate?, addCondition, Option.elim_some, allSubqueries,
      subqueriesOfConditions_append, subqueriesOfConditions, Condition.allSubqueries,
      List.append_nil, List.append_assoc]

/-- The aliases of the sub-queries of a query, in pre-order. -/
def filterLabels (q : Select) : List (Option String) := q.allSubqueries.map (·.source.label)

/-- The aliases of the joined tables of a query itself. -/
def joinLabels (q : Select) : List (Option String) := q.joins.map (·.source.label)

end Select

/-! ### The aliases of a plan -/

namespace Filter.Clause

/-- **Nested levels take consecutive aliases**, from the outside in. -/
theorem labels_nested (leaf : Option Leaf) (steps : List Step) (qualifier : String)
    (supply : AliasSupply) :
    ((nested leaf steps qualifier supply).elim [] Predicate.allSubqueries).map
        (·.source.label) = (supply.issue steps.length).map some := by
  induction steps generalizing qualifier supply with
  | nil =>
    cases leaf with
    | none => rfl
    | some leaf =>
      have hnone : (test qualifier leaf).allSubqueries = [] := by
        rw [← List.length_eq_zero_iff, Predicate.length_allSubqueries]
        exact Predicate.existsNodes_forOperator _ _ _
      rw [nested, Option.map_some, Option.elim_some, hnone]
      rfl
  | cons st steps ih =>
    have hlevel : (st.level qualifier supply.current).allSubqueries = [] := by
      rw [← List.length_eq_zero_iff, Select.length_allSubqueries, st.existsNodes_level]
    have hlabel : ∀ p : Option Predicate,
        ((st.level qualifier supply.current).addPredicate? .and p).source.label =
          some supply.current := by
      intro p
      cases p <;> rfl
    rw [nested, Option.elim_some, Predicate.allSubqueries, List.map_cons, hlabel,
      Select.allSubqueries_addPredicate?, hlevel, List.nil_append, ih, List.length_cons,
      AliasSupply.issue_succ, List.map_cons]

end Filter.Clause

/-- **Joins take consecutive aliases**, along the path of the order. -/
theorem OrderPath.labels_chainJoins (links : List Link) (parent : String)
    (supply : AliasSupply) :
    (chainJoins links parent supply).map (·.source.label) =
      (supply.issue links.length).map some := by
  induction links generalizing parent supply with
  | nil => rfl
  | cons l links ih =>
    rw [chainJoins, List.map_cons, ih, List.length_cons, AliasSupply.issue_succ, List.map_cons]

/-- The joined tables are those of the entities along the path. -/
theorem OrderPath.tables_chainJoins (links : List Link) (parent : String)
    (supply : AliasSupply) :
    (chainJoins links parent supply).map (·.source.table) = links.map (·.2.table) := by
  induction links generalizing parent supply with
  | nil => rfl
  | cons l links ih => rw [chainJoins, List.map_cons, ih, List.map_cons]

namespace Plan

/-- The conditions of clauses take the aliases of one clause after another. -/
theorem labels_conditions (table : String) (cs : List (Combinator × Filter.Clause))
    (supply : AliasSupply) :
    (subqueriesOfConditions (conditions table cs supply)).map (·.source.label) =
      (supply.issue (clauseAliases cs)).map some := by
  induction cs generalizing supply with
  | nil => rfl
  | cons c cs ih =>
    have hhead : subqueriesOfConditions
        ((c.2.predicate? table supply).map (Condition.mk c.1)).toList =
          (c.2.predicate? table supply).elim [] Predicate.allSubqueries := by
      cases c.2.predicate? table supply with
      | none => rfl
      | some p => exact List.append_nil _
    rw [conditions, subqueriesOfConditions_append, List.map_append, ih, hhead,
      Filter.Clause.predicate?, Filter.Clause.labels_nested, clauseAliases_cons,
      AliasSupply.issue_add, List.map_append]

/-- The sub-queries of a plan take the next aliases, in pre-order. -/
theorem filterLabels_query (p : Plan) (s : Searcher.Supplies) :
    (p.query s).filterLabels = (s.filters.issue p.filterAliases).map some := by
  have hjoins : subqueriesOfJoins
      (OrderPath.chainJoins p.links p.entity.table s.joins) = [] := by
    rw [← List.length_eq_zero_iff, length_subqueriesOfJoins,
      OrderPath.existsNodesOfJoins_chainJoins]
  rw [Select.filterLabels, query, Select.allSubqueries, hjoins, List.nil_append]
  exact labels_conditions _ _ _

/-- The joined tables of a plan take the next aliases, in their order. -/
theorem joinLabels_query (p : Plan) (s : Searcher.Supplies) :
    (p.query s).joinLabels = (s.joins.issue p.joinAliases).map some :=
  OrderPath.labels_chainJoins _ _ _

/-! ### The aliases of several plans -/

/-- The queries of plans, each written with what those before it leave. -/
def queries : List Plan → Searcher.Supplies → List Select
  | [], _ => []
  | p :: ps, s => p.query s :: queries ps (p.after s)

theorem queries_append (ps : List Plan) (p : Plan) (s : Searcher.Supplies) :
    queries (ps ++ [p]) s = queries ps s ++ [p.query (ps.foldl (fun s p => p.after s) s)] := by
  induction ps generalizing s with
  | nil => rfl
  | cons p' ps ih =>
    rw [List.cons_append, queries, ih]
    rfl

theorem existsNodes_queries (ps : List Plan) (s : Searcher.Supplies) :
    (queries ps s).map Select.existsNodes = ps.map filterAliases := by
  induction ps generalizing s with
  | nil => rfl
  | cons p ps ih => rw [queries, List.map_cons, existsNodes_query, ih, List.map_cons]

/-- **Plans take consecutive aliases** for their sub-queries. -/
theorem filterLabels_queries (ps : List Plan) (s : Searcher.Supplies) :
    (queries ps s).flatMap Select.filterLabels =
      (s.filters.issue (ps.map filterAliases).sum).map some := by
  induction ps generalizing s with
  | nil => rfl
  | cons p ps ih =>
    rw [queries, List.flatMap_cons, ih, filterLabels_query, List.map_cons, List.sum_cons,
      AliasSupply.issue_add, List.map_append]
    rfl

/-- **Plans take consecutive aliases** for their joined tables. -/
theorem joinLabels_queries (ps : List Plan) (s : Searcher.Supplies) :
    (queries ps s).flatMap Select.joinLabels =
      (s.joins.issue (ps.map joinAliases).sum).map some := by
  induction ps generalizing s with
  | nil => rfl
  | cons p ps ih =>
    rw [queries, List.flatMap_cons, ih, joinLabels_query, List.map_cons, List.sum_cons,
      AliasSupply.issue_add, List.map_append]
    rfl

end Plan

namespace Searcher

open AliasSupply (name existsStem joinStem)

variable {s : Searcher}

/-! ### The queries of a request -/

/-- **The queries of items**, the first of which has the given index, compiled one after another
with the same supplies. -/
def queries (s : Searcher) (order : Option OrderPath) :
    Nat → List SearchItem → Supplies → Except SearchError (List Select)
  | _, [], _ => .ok []
  | index, item :: items, supplies =>
    match s.compileItem index item order supplies with
    | .error e => .error e
    | .ok (q, supplies) => (s.queries order (index + 1) items supplies).map (q :: ·)

/-- The queries of items are those of their plans. -/
theorem queries_eq (order : Option OrderPath) (index : Nat) (items : List SearchItem)
    (supplies : Supplies) :
    s.queries order index items supplies =
      (s.plans order index items).map fun ps => Plan.queries ps supplies := by
  induction items generalizing index supplies with
  | nil => rfl
  | cons item items ih =>
    simp only [queries, plans, compileItem_eq]
    cases s.plan index item order with
    | error fault => rfl
    | ok p =>
      simp only [Except.map, ih]
      cases s.plans order (index + 1) items <;> rfl

/-- All items of a request take as many aliases for joined tables as the order has relations. -/
theorem joinAliases_of_plans {order : Option OrderPath} {start : Nat} {items : List SearchItem}
    {ps : List Plan} (h : s.plans order start items = .ok ps) :
    ps.map Plan.joinAliases = List.replicate items.length (hops order) := by
  induction items generalizing start ps with
  | nil =>
    rw [plans] at h
    rw [← Except.ok.inj h]
    rfl
  | cons item items ih =>
    obtain ⟨p, ps', rfl, hp, hps⟩ := plans_cons_cases h
    rw [List.map_cons, joinAliases_of_plan hp, ih hps, List.length_cons, List.replicate_succ]

/-! ### Density -/

/-- **Aliases are numbered without gaps and never given twice.** In the query that a request
compiles to, the sub-queries read in pre-order go by consecutive numbers, from the number of
sub-queries of the items before; the joined tables, which follow the relations of the order, go by
consecutive numbers too, from the number of these relations for each of the items before. No two
sub-queries or joined tables of all the queries of the request share an alias. -/
theorem labels_of_compile {request : SearchRequest} {order : Option OrderPath} {q : Select}
    (h : s.compile request order = .ok q) :
    ∃ qs : List Select, s.queries order 0 request.items .initial = .ok (qs ++ [q]) ∧
      q.filterLabels = (List.range' (qs.map Select.existsNodes).sum q.existsNodes).map
        (fun n => some (name existsStem n)) ∧
      q.joinLabels = (List.range' ((request.items.length - 1) * hops order) (hops order)).map
        (fun n => some (name joinStem n)) ∧
      (∀ o, order = some o → ∃ (root : Entity) (ls : List OrderPath.Link),
        q.source.table = root.table ∧ s.catalog.Follows root o.path.relations ls ∧
        q.joins.map (·.source.table) = ls.map (·.2.table)) ∧
      ((qs ++ [q]).flatMap Select.filterLabels ++
        (qs ++ [q]).flatMap Select.joinLabels).Nodup := by
  obtain ⟨-, ps, p, hps, rfl⟩ := plans_of_compile h
  have hqueries : Plan.queries (ps ++ [p]) .initial = Plan.queries ps .initial ++
      [p.query ⟨.after .forExists (ps.map Plan.filterAliases).sum,
        .after .forJoins (ps.map Plan.joinAliases).sum⟩] := by
    rw [Plan.queries_append, foldl_after]
    rfl
  -- all items take as many aliases for joined tables, so the last one begins at a multiple
  have hjoins := joinAliases_of_plans hps
  have hlength : ps.length + 1 = request.items.length := by
    simpa using congrArg List.length hjoins
  rw [← hlength, List.replicate_succ', List.map_append] at hjoins
  obtain ⟨hbefore, hlast⟩ := List.append_inj' hjoins rfl
  have hlast : p.joinAliases = hops order := by simpa using hlast
  have hsum : (ps.map Plan.joinAliases).sum = (request.items.length - 1) * hops order := by
    rw [hbefore, List.sum_replicate_nat, ← hlength, Nat.add_sub_cancel]
  refine ⟨Plan.queries ps .initial, ?_, ?_, ?_, ?_, ?_⟩
  · rw [queries_eq, hps]
    exact congrArg Except.ok hqueries
  · rw [Plan.filterLabels_query, Plan.existsNodes_queries, Plan.existsNodes_query,
      AliasSupply.issue, List.map_map]
    simp only [AliasSupply.after, AliasSupply.forExists, Nat.zero_add]
    rfl
  · rw [Plan.joinLabels_query, hlast, AliasSupply.issue, List.map_map]
    simp only [AliasSupply.after, AliasSupply.forJoins, Nat.zero_add, hsum]
    rfl
  · rintro o rfl
    obtain ⟨index, item, -, hplan⟩ := last_of_plans hps
    obtain ⟨ls, hls, hfollows⟩ := order_of_plan hplan
    have hlinks : p.links = ls := by rw [Plan.links, hls]; rfl
    refine ⟨p.entity, ls, rfl, hfollows, ?_⟩
    rw [← hlinks]
    exact OrderPath.tables_chainJoins _ _ _
  · rw [← hqueries, Plan.filterLabels_queries, Plan.joinLabels_queries, ← List.map_append]
    refine List.Nodup.map (fun _ _ h => Option.some.inj h) ?_
    exact (AliasSupply.nodup_issue _ _).append (AliasSupply.nodup_issue _ _)
      (AliasSupply.disjoint_issue rfl rfl _ _)

/-- The theorem at three ordered searches, the second of which takes aliases at two levels and
drops a comparison, before a search with two criteria. -/
theorem labels_of_compile_blog :
    ∃ q, Blog.searcher.compile ⟨[Blog.search [], Blog.admins,
        Blog.search [Blog.criterion "posts.id" "=" (.int 1),
          Blog.criterion "manager.posts.id" "=" (.int 2)]]⟩
        (some (.ofText "manager.manager.name" .asc)) = .ok q ∧
      ∃ qs : List Select, Blog.searcher.queries (some (.ofText "manager.manager.name" .asc)) 0
          [Blog.search [], Blog.admins, Blog.search [Blog.criterion "posts.id" "=" (.int 1),
            Blog.criterion "manager.posts.id" "=" (.int 2)]] .initial = .ok (qs ++ [q]) ∧
        q.filterLabels = (List.range' (qs.map Select.existsNodes).sum q.existsNodes).map
          (fun n => some (name existsStem n)) ∧
        q.joinLabels = (List.range' 4 2).map (fun n => some (name joinStem n)) ∧
        (∀ o, some (OrderPath.ofText "manager.manager.name" .asc) = some o →
          ∃ (root : Entity) (ls : List OrderPath.Link), q.source.table = root.table ∧
            Blog.catalog.Follows root o.path.relations ls ∧
            q.joins.map (·.source.table) = ls.map (·.2.table)) ∧
        ((qs ++ [q]).flatMap Select.filterLabels ++
          (qs ++ [q]).flatMap Select.joinLabels).Nodup :=
  ⟨_, rfl, labels_of_compile rfl⟩

end Searcher

end DottedQuery
