import DottedQuery.Proofs.Catalog.Names
import DottedQuery.Proofs.Query.Relabel
import DottedQuery.Proofs.Search.Level
import DottedQuery.Proofs.Search.Plan

/-!
# The same plan with later aliases

A plan knows no alias, so writing it with supplies that have gone on gives the same query with
aliases of larger numbers, and nothing else changes (`DottedQuery.Plan.query_after`). For that the
aliases have to be told from the tables of the plan; a catalog that avoids the two stems sees to
it. The aliases that a plan takes for sub-queries are as many as there are sub-queries in its query
(`DottedQuery.Plan.existsNodes_query`).
-/

namespace DottedQuery

/-- A function on names that shifts the numbers of the aliases of a stem. -/
def Shifts (f : String → String) (stem : String) (k : Nat) : Prop :=
  ∀ n, f (AliasSupply.name stem n) = AliasSupply.name stem (n + k)

/-- The next alias is shifted to that of the supply which has gone on. -/
theorem Shifts.current {f : String → String} {supply : AliasSupply} {k : Nat}
    (h : Shifts f supply.stem k) : f supply.current = (supply.after k).current :=
  h supply.next

theorem AliasSupply.taken_after (a : AliasSupply) (k : Nat) :
    a.taken.after k = (a.after k).taken := by
  simp only [AliasSupply.after, AliasSupply.taken, Nat.add_right_comm]

variable {f : String → String}

/-- The constraints of a relation are relabelled at their table. -/
theorem Relation.relabel_constraintConditions (r : Relation) (table : String) :
    relabelConditions f (r.constraintConditions table) = r.constraintConditions (f table) := by
  rw [relabelConditions_eq_map]
  simp only [constraintConditions, List.map_map]
  refine List.map_congr_left fun c _ => ?_
  exact congrArg Condition.and (Predicate.relabel_forOperator f _ _ _)

namespace Filter

namespace Step

/-! ### Levels -/

/-- A relabelling that leaves the pivot table of a step alone. -/
def KeptBy (st : Step) (f : String → String) : Prop :=
  ∀ p, st.relation.through? = some p → f p.table = p.table

variable {st : Step}

theorem relabel_tied (hf : st.KeptBy f) (label : String) :
    f (st.tied label) = st.tied (f label) := by
  cases hp : st.relation.through? with
  | none => rw [tied_of_direct hp, tied_of_direct hp]
  | some p =>
    by_cases hne : p.table = st.related.table
    · -- the pivot table goes by the alias of the related table, before and after
      simp only [tied, Relation.tiedTable, hp, Option.elim_some, hne, if_true]
    · rw [tied_of_through hp hne, tied_of_through hp hne, hf p hp]

/-- **A level is relabelled at its two names.** -/
theorem relabel_level (hf : st.KeptBy f) (qualifier label : String) :
    (st.level qualifier label).relabel f = st.level (f qualifier) (f label) := by
  have hkey : (st.relation.keyCondition (.outer qualifier) (.named (st.tied label))).relabel f =
      st.relation.keyCondition (.outer (f qualifier)) (.named (st.tied (f label))) := by
    rw [← relabel_tied hf]
    unfold Relation.keyCondition
    cases st.relation.kind <;> rfl
  have hdemands : relabelConditions f (st.demands qualifier label) =
      st.demands (f qualifier) (f label) := by
    rw [demands, relabelConditions, st.relation.relabel_constraintConditions, demands, ← hkey]
    rfl
  have hjoins : relabelJoins f (st.pivotJoins label) = st.pivotJoins (f label) := by
    rw [relabelJoins_eq_map, pivotJoins, pivotJoins, ← relabel_tied hf]
    cases st.relation.through? <;> rfl
  rw [level_form, level_form, ← hdemands, ← hjoins]
  rfl

theorem existsNodesOfConditions_constraintConditions (r : Relation) (table : String) :
    existsNodesOfConditions (r.constraintConditions table) = 0 := by
  unfold Relation.constraintConditions
  induction r.constraints with
  | nil => rfl
  | cons c cs ih =>
    rw [List.map_cons, existsNodesOfConditions, ih, Nat.add_zero]
    exact Predicate.existsNodes_forOperator _ _ _

/-- A level has no sub-queries of its own. -/
theorem existsNodes_level (st : Step) (qualifier label : String) :
    (st.level qualifier label).existsNodes = 0 := by
  have hkey : (st.relation.keyCondition (.outer qualifier)
      (.named (st.tied label))).existsNodes = 0 := by
    unfold Relation.keyCondition
    cases st.relation.kind <;> rfl
  have hdemands : existsNodesOfConditions (st.demands qualifier label) = 0 := by
    rw [demands, existsNodesOfConditions, existsNodesOfConditions_constraintConditions,
      Nat.add_zero]
    exact hkey
  have hjoins : existsNodesOfJoins (st.pivotJoins label) = 0 := by
    rw [pivotJoins]
    cases st.relation.through? <;> rfl
  rw [level_form, Select.existsNodes, hdemands, hjoins]

end Step

end Filter

namespace Select

theorem relabel_addPredicate? (q : Select) (c : Combinator) (p : Option Predicate) :
    (q.addPredicate? c p).relabel f =
      (q.relabel f).addPredicate? c (p.map (Predicate.relabel f)) := by
  obtain ⟨ps, s, js, ws, os⟩ := q
  cases p with
  | none => rfl
  | some p =>
    simp only [addPredicate?, addCondition, Option.map_some, relabel, relabelConditions_append]
    rfl

theorem existsNodes_addPredicate? (q : Select) (c : Combinator) (p : Option Predicate) :
    (q.addPredicate? c p).existsNodes = q.existsNodes + p.elim 0 Predicate.existsNodes := by
  obtain ⟨ps, s, js, ws, os⟩ := q
  cases p with
  | none => rfl
  | some p =>
    simp only [addPredicate?, addCondition, Option.elim_some, existsNodes,
      existsNodesOfConditions_append, existsNodesOfConditions, Condition.existsNodes]
    omega

end Select

namespace Filter.Clause

/-! ### Levels inside levels -/

variable {leaf : Option Leaf} {steps : List Step} {supply : AliasSupply} {k : Nat}

/-- **Nested levels with later aliases** are the same, relabelled. -/
theorem nested_after (hf : Shifts f supply.stem k) (hsteps : ∀ st ∈ steps, st.KeptBy f)
    (qualifier : String) :
    (nested leaf steps qualifier supply).map (Predicate.relabel f) =
      nested leaf steps (f qualifier) (supply.after k) := by
  induction steps generalizing qualifier supply with
  | nil =>
    cases leaf with
    | none => rfl
    | some leaf => exact congrArg some (Predicate.relabel_forOperator f _ _ _)
  | cons st steps ih =>
    have ih := ih (show Shifts f supply.taken.stem k from hf)
      (fun st hst => hsteps st (List.mem_cons_of_mem _ hst)) supply.current
    rw [hf.current, AliasSupply.taken_after] at ih
    simp only [nested, Option.map_some, Predicate.relabel, Select.relabel_addPredicate?, ih,
      Step.relabel_level (hsteps st List.mem_cons_self), hf.current]

/-- There are as many sub-queries as steps. -/
theorem existsNodes_nested (qualifier : String) :
    (nested leaf steps qualifier supply).elim 0 Predicate.existsNodes = steps.length := by
  induction steps generalizing qualifier supply with
  | nil =>
    cases leaf with
    | none => rfl
    | some leaf => exact Predicate.existsNodes_forOperator _ _ _
  | cons st steps ih =>
    simp only [nested, Option.elim_some, Predicate.existsNodes, Select.existsNodes_addPredicate?,
      Step.existsNodes_level, ih, List.length_cons, Nat.zero_add]

end Filter.Clause

namespace OrderPath

/-! ### Chains -/

variable {links : List Link} {supply : AliasSupply} {k : Nat}

theorem relabel_joinOn (r : Relation) (parent label : String) :
    relabelConditions f (r.joinOn parent label) = r.joinOn (f parent) (f label) := by
  rw [Relation.joinOn, relabelConditions, r.relabel_constraintConditions, Relation.joinOn]
  cases r.kind <;> rfl

/-- **Joins with later aliases** are the same, relabelled. -/
theorem chainJoins_after (hf : Shifts f supply.stem k) (parent : String) :
    relabelJoins f (chainJoins links parent supply) =
      chainJoins links (f parent) (supply.after k) := by
  induction links generalizing parent supply with
  | nil => rfl
  | cons l links ih =>
    have ih := ih (show Shifts f supply.taken.stem k from hf) supply.current
    rw [hf.current, AliasSupply.taken_after] at ih
    simp only [chainJoins, relabelJoins, Join.relabel, relabel_joinOn, Source.relabel,
      Option.map_some, hf.current, ih]

theorem chainEnd_after (hf : Shifts f supply.stem k) (parent : String) :
    f (chainEnd links parent supply) = chainEnd links (f parent) (supply.after k) := by
  induction links generalizing parent supply with
  | nil => rfl
  | cons l links ih =>
    have ih := ih (show Shifts f supply.taken.stem k from hf) supply.current
    rwa [hf.current, AliasSupply.taken_after] at ih

/-- Joins have no sub-queries. -/
theorem existsNodesOfJoins_chainJoins (links : List Link) (parent : String)
    (supply : AliasSupply) : existsNodesOfJoins (chainJoins links parent supply) = 0 := by
  induction links generalizing parent supply with
  | nil => rfl
  | cons l links ih =>
    rw [chainJoins, existsNodesOfJoins, ih, Join.existsNodes, Relation.joinOn,
      existsNodesOfConditions, Filter.Step.existsNodesOfConditions_constraintConditions]
    cases l.1.kind <;> rfl

end OrderPath

namespace Plan

/-! ### Plans -/

variable {p : Plan} {s : Searcher.Supplies} {supply : AliasSupply} {k : Nat}

/-- A relabelling that leaves the tables of a plan alone. -/
structure KeptBy (p : Plan) (f : String → String) : Prop where
  /-- It leaves the table of the entity. -/
  table : f p.entity.table = p.entity.table
  /-- It leaves the pivot tables of the steps. -/
  steps : ∀ c ∈ p.clauses, ∀ st ∈ c.2.steps, st.KeptBy f

/-- Conditions with later aliases are the same, relabelled. -/
theorem conditions_after {table : String} (htable : f table = table)
    {cs : List (Combinator × Filter.Clause)}
    (hsteps : ∀ c ∈ cs, ∀ st ∈ c.2.steps, st.KeptBy f) (hf : Shifts f supply.stem k) :
    relabelConditions f (conditions table cs supply) = conditions table cs (supply.after k) := by
  induction cs generalizing supply with
  | nil => rfl
  | cons c cs ih =>
    -- the shift and the aliases that the first clause takes add up in either order
    have hswap : (supply.after c.2.steps.length).after k =
        (supply.after k).after c.2.steps.length := by
      rw [AliasSupply.after_after, AliasSupply.after_after, Nat.add_comm]
    have ih := ih (fun c hc => hsteps c (List.mem_cons_of_mem _ hc))
      (show Shifts f (supply.after c.2.steps.length).stem k from hf)
    have hhead : (Filter.Clause.nested c.2.leaf c.2.steps table supply).map
        (Predicate.relabel f) =
          Filter.Clause.nested c.2.leaf c.2.steps (f table) (supply.after k) :=
      Filter.Clause.nested_after hf (hsteps c List.mem_cons_self) table
    rw [htable] at hhead
    rw [conditions, relabelConditions_append, ih, hswap, conditions, Filter.Clause.predicate?,
      Filter.Clause.predicate?, ← hhead]
    cases Filter.Clause.nested c.2.leaf c.2.steps table supply <;> rfl

/-- There are as many sub-queries in conditions as their clauses take aliases. -/
theorem existsNodesOfConditions_conditions (table : String)
    (cs : List (Combinator × Filter.Clause)) (supply : AliasSupply) :
    existsNodesOfConditions (conditions table cs supply) = clauseAliases cs := by
  induction cs generalizing supply with
  | nil => rfl
  | cons c cs ih =>
    have hhead : (Filter.Clause.nested c.2.leaf c.2.steps table supply).elim 0
        Predicate.existsNodes = c.2.steps.length :=
      Filter.Clause.existsNodes_nested table
    rw [conditions, existsNodesOfConditions_append, ih, clauseAliases_cons, ← hhead,
      Filter.Clause.predicate?]
    cases Filter.Clause.nested c.2.leaf c.2.steps table supply <;> rfl

/-- **A plan with later aliases** is written as the same query, relabelled. -/
theorem query_after (hp : p.KeptBy f) {filters joins : Nat}
    (hfilters : Shifts f s.filters.stem filters) (hjoins : Shifts f s.joins.stem joins) :
    p.query ⟨s.filters.after filters, s.joins.after joins⟩ = (p.query s).relabel f := by
  have hchain : relabelJoins f (OrderPath.chainJoins p.links p.entity.table s.joins) =
      OrderPath.chainJoins p.links p.entity.table (s.joins.after joins) := by
    rw [OrderPath.chainJoins_after hjoins, hp.table]
  have horder : (p.orderTerms s.joins).map (OrderTerm.relabel f) =
      p.orderTerms (s.joins.after joins) := by
    unfold orderTerms
    cases p.order with
    | none => rfl
    | some o =>
      have hend : f (OrderPath.chainEnd o.2 p.entity.table s.joins) =
          OrderPath.chainEnd o.2 (f p.entity.table) (s.joins.after joins) :=
        OrderPath.chainEnd_after hjoins p.entity.table
      rw [hp.table] at hend
      simp only [Option.map_some, Option.toList_some, List.map_cons, List.map_nil,
        OrderTerm.relabel, Column.relabel, Column.named, hend]
  simp only [query, Select.relabel, hchain, horder, conditions_after hp.table hp.steps hfilters]
  rfl

/-- **A plan takes as many aliases for sub-queries as its query has.** -/
theorem existsNodes_query (p : Plan) (s : Searcher.Supplies) :
    (p.query s).existsNodes = p.filterAliases := by
  rw [query, Select.existsNodes, OrderPath.existsNodesOfJoins_chainJoins,
    existsNodesOfConditions_conditions, Nat.zero_add, filterAliases]

end Plan

end DottedQuery
