import DottedQuery.Proofs.Catalog.Closed
import DottedQuery.Proofs.Search.Numbering
import DottedQuery.Proofs.Search.Scopes

/-!
# What becomes of a filter

A filter follows its path relation by relation, until the path ends or something stands in the
way: a name that is no relation of the entity reached, or a relation that filters may not follow.
What becomes of it depends on that obstacle alone.

| where the walk ends                 | what becomes of the filter                             |
|-------------------------------------|--------------------------------------------------------|
| at a name that is no relation       | the search fails, naming the entity reached            |
| at a relation not to be followed    | the levels before it, without the comparison           |
| at the end, the field being hidden  | the search is refused, or all levels are left, without |
|                                     | the comparison, as the policy says                     |
| at the end, the field being shown   | all levels, the innermost with the comparison          |

The relations before the obstacle are a *trail* (`DottedQuery.Catalog.Trail`), and every path is a
trail or runs into an obstacle behind one (`DottedQuery.Catalog.trail_or_obstacle`). The levels
are those of the trail, one for each relation, each inside the one before it
(`DottedQuery.Filter.levels`); in a catalog that passes its check, the table above is what happens
(`DottedQuery.Searcher.applyCriterion_outcome`).
-/

namespace DottedQuery

/-! ### Trails -/

/-- **Relations that filters may follow**, by their names, from an entity on; each is kept with
the entity it leads to. -/
inductive Catalog.Trail (catalog : Catalog) :
    Entity → List String → List (Relation × Entity) → Entity → Prop
  /-- Nothing is followed. -/
  | here (e : Entity) : Trail catalog e [] [] e
  /-- A relation is followed, and others from the entity it leads to. -/
  | there {e related target : Entity} {name : String} {names : List String} {r : Relation}
      {links : List (Relation × Entity)} (relation : e.relation? name = some r)
      (followed : r.isSearchable = true) (leads : catalog.entity? r.related = some related)
      (rest : Trail catalog related names links target) :
      Trail catalog e (name :: names) ((r, related) :: links) target

/-- What keeps a path from being followed at a name: there is no such relation, or it is one that
filters may not follow. -/
def Entity.Obstacle (e : Entity) (name : String) : Prop :=
  e.relation? name = none ∨ ∃ r, e.relation? name = some r ∧ r.isSearchable = false

namespace Catalog

variable {catalog : Catalog} {e target : Entity} {names : List String}
  {links : List (Relation × Entity)}

theorem Trail.length (h : catalog.Trail e names links target) : links.length = names.length := by
  induction h with
  | here => rfl
  | there _ _ _ _ ih => rw [List.length_cons, List.length_cons, ih]

/-- **A path is a trail, or runs into an obstacle behind one**, where relations lead to entities. -/
theorem trail_or_obstacle (hc : catalog.Closed) (he : catalog.Has e) (names : List String) :
    (∃ links target, catalog.Trail e names links target) ∨
      ∃ before name rest links target, names = before ++ name :: rest ∧
        catalog.Trail e before links target ∧ target.Obstacle name := by
  induction names generalizing e with
  | nil => exact Or.inl ⟨[], e, .here e⟩
  | cons name names ih =>
    by_cases hob : e.Obstacle name
    · exact Or.inr ⟨[], name, names, [], e, rfl, .here e, hob⟩
    · obtain ⟨hrel, hfollowed⟩ := not_or.mp hob
      obtain ⟨r, hr⟩ := Option.ne_none_iff_exists'.mp hrel
      have hs : r.isSearchable = true := by
        rw [← Bool.not_eq_false]
        exact fun hs => hfollowed ⟨r, hr, hs⟩
      obtain ⟨related, hrelated⟩ := hc.leads e he r (Entity.mem_of_relation? hr)
      rcases ih ⟨_, hrelated⟩ with ⟨links, target, h⟩ | ⟨before, n, rest, links, target, rfl, h, ho⟩
      · exact Or.inl ⟨_, target, .there hr hs hrelated h⟩
      · exact Or.inr ⟨name :: before, n, rest, _, target, rfl, .there hr hs hrelated h, ho⟩

end Catalog

/-! ### The levels of a trail -/

/-- The name of the table that ties the rows of a level to those around: the alias of the related
table, or the name of a pivot table that is another one. -/
def Relation.tiedName (r : Relation) (related : Entity) (label : String) : String :=
  if r.tiedTable related.table = related.table then label else r.tiedTable related.table

namespace Filter

open Clause (test)

/-- **The levels of a trail**, from a table that goes by `qualifier`: one sub-query for each
relation under the next alias, each the last condition of the one before it, and the comparison,
if there is one, the last condition of the innermost. -/
def levels (leaf : Option Leaf) : List (Relation × Entity) → String → AliasSupply → Option Select
  | [], _, _ => none
  | [(r, related)], qualifier, supply =>
    some (r.subquery related qualifier supply.current (r.tiedName related supply.current)
      (leaf.map (test supply.current)))
  | (r, related) :: link :: links, qualifier, supply =>
    some (r.subquery related qualifier supply.current (r.tiedName related supply.current)
      ((levels leaf (link :: links) supply.current supply.taken).map .exists))

/-- **What becomes of a filter** along a path from an entity whose table goes by `qualifier`. -/
inductive Outcome (catalog : Catalog) (policy : HiddenFieldPolicy) (leaf : Leaf) (e : Entity)
    (path : List String) (qualifier : String) (supply : AliasSupply) :
    Except SearchError (Option Select × AliasSupply) → Prop
  /-- A name is no relation of the entity that is reached. -/
  | unknown {before rest : List String} {name : String} {links : List (Relation × Entity)}
      {target : Entity} (path_eq : path = before ++ name :: rest)
      (trail : catalog.Trail e before links target) (obstacle : target.relation? name = none) :
      Outcome catalog policy leaf e path qualifier supply
        (.error (.unknownRelation target.name name))
  /-- A relation is one that filters may not follow. -/
  | cut {before rest : List String} {name : String} {links : List (Relation × Entity)}
      {target : Entity} {r : Relation} (path_eq : path = before ++ name :: rest)
      (trail : catalog.Trail e before links target) (relation : target.relation? name = some r)
      (obstacle : r.isSearchable = false) :
      Outcome catalog policy leaf e path qualifier supply
        (.ok (levels none links qualifier supply, supply.after before.length))
  /-- The field is hidden, and the policy is to refuse. -/
  | denied {links : List (Relation × Entity)} {target : Entity}
      (trail : catalog.Trail e path links target) (isHidden : target.isHidden leaf.field = true)
      (deny : policy = .deny) :
      Outcome catalog policy leaf e path qualifier supply (.error (.denied target.name leaf.field))
  /-- The field is hidden, and the policy is to leave the comparison out. -/
  | dropped {links : List (Relation × Entity)} {target : Entity}
      (trail : catalog.Trail e path links target) (isHidden : target.isHidden leaf.field = true)
      (drop : policy = .drop) :
      Outcome catalog policy leaf e path qualifier supply
        (.ok (levels none links qualifier supply, supply.after path.length))
  /-- The field is not hidden. -/
  | compared {links : List (Relation × Entity)} {target : Entity}
      (trail : catalog.Trail e path links target) (shown : target.isHidden leaf.field = false) :
      Outcome catalog policy leaf e path qualifier supply
        (.ok (levels (some leaf) links qualifier supply, supply.after path.length))

/-! ### Routes along trails -/

variable {catalog : Catalog} {policy : HiddenFieldPolicy} {leaf : Leaf} {e target : Entity}
  {names : List String} {links : List (Relation × Entity)} {qualifier : String}
  {supply : AliasSupply}

/-- The relation of a step, with the entity it leads to. -/
def Step.link (st : Step) : Relation × Entity := (st.relation, st.related)

/-- **The nested predicates of steps are the levels of their relations.** -/
theorem subquery?_nested (leaf : Option Leaf) (steps : List Step) (qualifier : String)
    (supply : AliasSupply) :
    (Clause.nested leaf steps qualifier supply).bind Predicate.subquery? =
      levels leaf (steps.map Step.link) qualifier supply := by
  induction steps generalizing qualifier supply with
  | nil =>
    cases leaf with
    | none => rfl
    | some leaf => exact Predicate.subquery?_forOperator _ _ _
  | cons st steps ih =>
    rw [Clause.nested, level_eq_subquery]
    cases steps with
    | nil => rfl
    | cons st' steps =>
      -- what is nested inside is a sub-query again, for another relation is followed
      rw [List.map_cons, List.map_cons, levels, ← List.map_cons, ← ih, Clause.nested]
      rfl

/-- **The route of a path that begins with a trail** follows it and goes on behind it. -/
theorem route_append (policy : HiddenFieldPolicy) (hc : catalog.Closed) (he : catalog.Has e)
    (htrail : catalog.Trail e names links target) :
    ∃ steps, steps.map Step.link = links ∧ ∀ field rest,
      route catalog policy field (names ++ rest) e =
        (route catalog policy field rest target).map fun r => (steps ++ r.1, r.2) := by
  induction htrail with
  | here e =>
    refine ⟨[], rfl, fun field rest => ?_⟩
    rw [List.nil_append]
    cases route catalog policy field rest e <;> rfl
  | @there e related target name names r links hrel hs hent _ ih =>
    obtain ⟨steps, hsteps, hroute⟩ := ih ⟨_, hent⟩
    obtain ⟨rows, hrows⟩ := hc.existsQuery he (Entity.mem_of_relation? hrel) e.table related.table
    refine ⟨⟨e, r, related, rows, hrows⟩ :: steps, by rw [List.map_cons, hsteps]; rfl, ?_⟩
    intro field rest
    rw [List.cons_append, route_of_step hrel hs hent hrows, hroute]
    cases route catalog policy field rest target <;> rfl

/-- The walk along a path that begins with a trail and follows nothing behind it: it writes the
levels of the trail, if it does not fail. -/
theorem walk_append (hc : catalog.Closed) (he : catalog.Has e)
    (htrail : catalog.Trail e names links target) {rest : List String} (hne : names ++ rest ≠ [])
    (x : Except SearchError Bool)
    (hrest : route catalog policy leaf.field rest target = x.map ([], ·)) :
    walk catalog policy leaf (names ++ rest) ⟨e, qualifier⟩ supply = x.map fun b =>
      (levels (if b then some leaf else none) links qualifier supply,
        supply.after names.length) := by
  obtain ⟨steps, rfl, hroute⟩ := route_append policy hc he htrail
  rw [walk_eq leaf _ hne, hroute, hrest]
  cases x with
  | error fault => rfl
  | ok b =>
    have hlevels := subquery?_nested (if b then some leaf else none) steps qualifier supply
    simp only [Except.map, List.append_nil, Clause.predicate?, Clause.ofRoute, hlevels,
      ← htrail.length, List.length_map]

/-- The walk along a trail, by what is decided about the comparison at its end. -/
theorem walk_of_trail (hc : catalog.Closed) (he : catalog.Has e)
    (htrail : catalog.Trail e names links target) (hne : names ≠ []) :
    walk catalog policy leaf names ⟨e, qualifier⟩ supply =
      (arrive policy leaf.field target).map fun b =>
        (levels (if b then some leaf else none) links qualifier supply,
          supply.after names.length) := by
  have hwalk : walk catalog policy leaf (names ++ []) ⟨e, qualifier⟩ supply = _ :=
    walk_append hc he htrail (by simpa using hne) (arrive policy leaf.field target) rfl
  rwa [List.append_nil] at hwalk

/-- **The walk comes to each of its outcomes.** -/
theorem walk_eq_of_outcome (hc : catalog.Closed) (he : catalog.Has e) {path : List String}
    (hne : path ≠ []) {x : Except SearchError (Option Select × AliasSupply)}
    (h : Outcome catalog policy leaf e path qualifier supply x) :
    walk catalog policy leaf path ⟨e, qualifier⟩ supply = x := by
  cases h with
  | unknown hpath htrail hrel =>
    subst hpath
    exact walk_append hc he htrail hne (.error _) (route_of_unknown hrel)
  | cut hpath htrail hrel hs =>
    subst hpath
    exact walk_append hc he htrail hne (.ok false) (route_of_cut hrel hs)
  | denied htrail hhidden hdeny =>
    rw [walk_of_trail hc he htrail hne]
    simp [arrive, hhidden, hdeny, Except.map]
  | dropped htrail hhidden hdrop =>
    rw [walk_of_trail hc he htrail hne]
    simp [arrive, hhidden, hdrop, Except.map]
  | compared htrail hshown =>
    rw [walk_of_trail hc he htrail hne]
    simp [arrive, hshown, Except.map]

/-- **A filter has an outcome.** -/
theorem exists_outcome (hc : catalog.Closed) (he : catalog.Has e) (policy : HiddenFieldPolicy)
    (leaf : Leaf) (path : List String) (qualifier : String) (supply : AliasSupply) :
    ∃ x, Outcome catalog policy leaf e path qualifier supply x := by
  rcases Catalog.trail_or_obstacle hc he path with
    ⟨links, target, htrail⟩ | ⟨before, name, rest, links, target, hpath, htrail, hrel | hob⟩
  · cases hhidden : target.isHidden leaf.field with
    | false => exact ⟨_, .compared htrail hhidden⟩
    | true =>
      cases policy with
      | drop => exact ⟨_, .dropped htrail hhidden rfl⟩
      | deny => exact ⟨_, .denied htrail hhidden rfl⟩
  · exact ⟨_, .unknown hpath htrail hrel⟩
  · obtain ⟨r, hrel, hs⟩ := hob
    exact ⟨_, .cut hpath htrail hrel hs⟩

/-- **What becomes of a filter is its outcome**, and nothing else is. -/
theorem walk_eq_iff (hc : catalog.Closed) (he : catalog.Has e) {path : List String}
    (hne : path ≠ []) (x : Except SearchError (Option Select × AliasSupply)) :
    walk catalog policy leaf path ⟨e, qualifier⟩ supply = x ↔
      Outcome catalog policy leaf e path qualifier supply x := by
  refine ⟨?_, walk_eq_of_outcome hc he hne⟩
  rintro rfl
  obtain ⟨x, hx⟩ := exists_outcome hc he policy leaf path qualifier supply
  rwa [walk_eq_of_outcome hc he hne hx]

end Filter

/-! ### The tables of the levels -/

/-- A predicate that is no sub-query holds none. -/
theorem Predicate.allSubqueries_of_subquery? {p : Predicate} (h : p.subquery? = none) :
    p.allSubqueries = [] := by
  cases p with
  | compare => rfl
  | inSet => rfl
  | columns => rfl
  | «exists» sub => simp [subquery?] at h

/-- The sub-queries in the sub-query of a relation are those nested inside it. -/
theorem Relation.allSubqueries_subquery (r : Relation) (related : Entity)
    (parent label tied : String) (inner : Option Predicate) :
    (r.subquery related parent label tied inner).allSubqueries =
      inner.elim [] Predicate.allSubqueries := by
  have hkey : (r.keyCondition (.outer parent) (.named tied)).allSubqueries = [] :=
    Predicate.allSubqueries_of_subquery? (subquery?_keyCondition r _ _)
  have hconstraints : subqueriesOfConditions (r.constraintConditions label) = [] := by
    rw [← List.length_eq_zero_iff, length_subqueriesOfConditions]
    exact Filter.Step.existsNodesOfConditions_constraintConditions r label
  have hjoins : subqueriesOfJoins (r.through?.map fun p => pivotJoin p label tied).toList = [] := by
    cases r.through? <;> rfl
  rw [subquery, Select.allSubqueries, hjoins, List.nil_append, subqueriesOfConditions,
    Condition.and, Condition.allSubqueries, hkey, List.nil_append, subqueriesOfConditions_append,
    hconstraints, List.nil_append]
  cases inner with
  | none => rfl
  | some p => exact List.append_nil _

namespace Filter

/-- **The levels read the tables of the trail**, each under an alias of its own: there is one for
each relation, and they take the next aliases, from the outside in. -/
theorem sources_levels (leaf : Option Leaf) (links : List (Relation × Entity)) (qualifier : String)
    (supply : AliasSupply) :
    ((levels leaf links qualifier supply).elim [] fun sub => sub :: sub.allSubqueries).map
        (·.source) =
      links.zipWith (fun l label => ⟨l.2.table, some label⟩) (supply.issue links.length) := by
  induction links generalizing qualifier supply with
  | nil => rfl
  | cons l links ih =>
    obtain ⟨r, related⟩ := l
    rw [List.length_cons, AliasSupply.issue_succ, List.zipWith_cons_cons]
    cases links with
    | nil =>
      have htest :
          (leaf.map (Clause.test supply.current)).elim [] Predicate.allSubqueries = [] := by
        cases leaf with
        | none => rfl
        | some leaf =>
          exact Predicate.allSubqueries_of_subquery? (Predicate.subquery?_forOperator _ _ _)
      rw [levels, Option.elim_some, Relation.allSubqueries_subquery, htest]
      rfl
    | cons link links =>
      have hinner : ((levels leaf (link :: links) supply.current supply.taken).map
          Predicate.exists).elim [] Predicate.allSubqueries =
            (levels leaf (link :: links) supply.current supply.taken).elim []
              fun sub => sub :: sub.allSubqueries := by
        cases levels leaf (link :: links) supply.current supply.taken <;> rfl
      rw [levels, Option.elim_some, List.map_cons, Relation.allSubqueries_subquery, hinner, ih]
      rfl

end Filter

/-! ### The outcome of a criterion -/

namespace Searcher

open DottedQuery.Filter (Outcome levels walk)

variable {s : Searcher} {e : Entity} {path : FieldPath}

/-- A criterion whose path follows relations adds what the walk returns, and nothing else. -/
theorem applyCriterion_eq_walk (hpath : path.relations ≠ []) (comb : Combinator) (op : Operator)
    (value : Value) (q : Select) (supply : AliasSupply) :
    s.applyCriterion e comb path op value q supply =
      (walk s.catalog s.policy ⟨path.field, op, value⟩ path.relations ⟨e, e.table⟩ supply).map
        fun r => ({ q with
          wheres := q.wheres ++ (r.1.map fun sub => ⟨comb, .exists sub⟩).toList }, r.2) := by
  have hrel : path.isRelational = true := by simpa [FieldPath.isRelational] using hpath
  unfold applyCriterion
  rw [if_pos hrel]
  cases walk s.catalog s.policy ⟨path.field, op, value⟩ path.relations ⟨e, e.table⟩ supply with
  | error fault => rfl
  | ok r =>
    obtain ⟨sub, supply'⟩ := r
    cases sub with
    | none =>
      obtain ⟨ps, source, js, ws, os⟩ := q
      simp [Except.map]
    | some sub => rfl

/-- **What becomes of a criterion that follows relations.** In a catalog that passes its check, the
walk comes to one outcome and to no other, whatever the table it starts from goes by. A search
that does not fail there has one more condition, with the combinator that is given, unless no
relation has been followed; nothing else of its query is changed. The levels read the tables that
the relations lead to, in their order, under the next aliases. -/
theorem applyCriterion_outcome (hcheck : s.catalog.check = .ok ()) (he : s.catalog.Has e)
    (hpath : path.relations ≠ []) (comb : Combinator) (op : Operator) (value : Value) (q : Select)
    (supply : AliasSupply) :
    (∀ qualifier x,
      walk s.catalog s.policy ⟨path.field, op, value⟩ path.relations ⟨e, qualifier⟩ supply = x ↔
        Outcome s.catalog s.policy ⟨path.field, op, value⟩ e path.relations qualifier supply x) ∧
    (∀ x, s.applyCriterion e comb path op value q supply = x ↔
      ∃ y, Outcome s.catalog s.policy ⟨path.field, op, value⟩ e path.relations e.table supply y ∧
        x = y.map fun r => ({ q with
          wheres := q.wheres ++ (r.1.map fun sub => ⟨comb, .exists sub⟩).toList }, r.2)) ∧
    ∀ leaf links qualifier,
      ((levels leaf links qualifier supply).elim [] fun sub => sub :: sub.allSubqueries).map
          (·.source) =
        links.zipWith (fun l label => ⟨l.2.table, some label⟩) (supply.issue links.length) := by
  have hc := Catalog.closed_of_check hcheck
  refine ⟨fun qualifier x => Filter.walk_eq_iff hc he hpath x, fun x => ?_,
    fun leaf links qualifier => Filter.sources_levels leaf links qualifier supply⟩
  rw [applyCriterion_eq_walk hpath]
  constructor
  · rintro rfl
    exact ⟨_, (Filter.walk_eq_iff hc he hpath _).mp rfl, rfl⟩
  · rintro ⟨y, hy, rfl⟩
    rw [(Filter.walk_eq_iff hc he hpath y).mpr hy]

/-- A filter on the secrets of a manager is cut behind the manager: it asks for a manager, as an
alternative to the condition before it, and takes one alias. -/
theorem applyCriterion_outcome_blog :
    Blog.searcher.catalog.check = .ok () ∧ Blog.searcher.catalog.Has Blog.user ∧
      (FieldPath.ofText "manager.secrets.text").relations ≠ [] ∧
      ∃ sub, Blog.searcher.applyCriterion Blog.user .or (.ofText "manager.secrets.text") .eq
          (.int 1) (.ofTable "users") .forExists =
            .ok ((Select.ofTable "users").addCondition ⟨.or, .exists sub⟩, ⟨"wherehas_", 1⟩) ∧
        (sub :: sub.allSubqueries).map (·.source) = [⟨"users", some "wherehas_0"⟩] := by
  have hcheck : Blog.searcher.catalog.check = .ok () := rfl
  have huser : Blog.searcher.catalog.Has Blog.user := ⟨"User", rfl⟩
  have hpath : (FieldPath.ofText "manager.secrets.text").relations ≠ [] := by decide
  obtain ⟨-, houtcome, hsources⟩ := applyCriterion_outcome hcheck huser hpath .or .eq (.int 1)
    (.ofTable "users") .forExists
  have hmanager : Blog.searcher.catalog.Trail Blog.user ["manager"]
      [(.belongsTo "manager" "User" "manager_id" "id", Blog.user)] Blog.user :=
    .there rfl rfl rfl (.here _)
  have hsplit : (FieldPath.ofText "manager.secrets.text").relations = ["manager"] ++ ["secrets"] :=
    by decide
  refine ⟨hcheck, huser, hpath, _, (houtcome _).mpr ⟨_, .cut hsplit hmanager rfl rfl, rfl⟩, ?_⟩
  exact hsources none [(.belongsTo "manager" "User" "manager_id" "id", Blog.user)] "users"

end Searcher

end DottedQuery
