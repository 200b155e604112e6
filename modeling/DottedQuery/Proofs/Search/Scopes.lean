import DottedQuery.Proofs.Rows.Agreement
import DottedQuery.Proofs.Rows.Faithful
import DottedQuery.Proofs.Search.Written
import Mathlib.Data.List.Nodup

/-!
# What a qualifier stands for

A statement refers to tables by name, and a name is looked up from the inside out: among the
tables of the select that it stands in, then among those of the select around it. The compiler
makes every reference for one particular table. This file says when the lookup finds that table.

A **place** is a table of a statement, by the number of selects around it and its position among
the tables of its select. A query is **anchored** (`DottedQuery.Select.Anchored`) if the lookup of
every qualifier in it finds the place that the reference was made for: in the sub-query of a
relation (`DottedQuery.Relation.subquery`) the columns of the related side find the table that it
reads, those of a pivot table the join of that table, and those of the declaring side the table
read by the select right around it; and the conditions of the joins of an order find the join
before and their own join.

Where no table is spelled like an alias and no pivot table is the table of an entity it relates,
every query that is returned is anchored, and none of its selects binds a name twice
(`DottedQuery.Searcher.anchored_of_compile`). The check of a configuration does not ask for
either. A pivot table that is the related table loses its name to the alias of that table, and
the references made for it find the wrong one (`DottedQuery.Club.not_anchored`).
-/

namespace DottedQuery

open AliasSupply (existsStem joinStem)

/-! ### Places -/

/-- A table of a statement. -/
structure Place where
  /-- The number of selects around its select. -/
  depth : Nat
  /-- Its position there: the table that is read comes first, then the joined ones. -/
  position : Nat
deriving DecidableEq, Repr

/-- The names in sight and what they stand for, those of inner selects first. -/
abbrev Env := List (String × Place)

/-- What a name finds. -/
def Env.Finds (env : Env) (name : String) (place : Place) : Prop :=
  Dict.lookup name env = some place

namespace Select

/-- The names that the tables of a select go by. -/
def names (q : Select) : List String :=
  q.source.qualifier :: q.joins.map fun j => j.source.qualifier

/-- What the names of a select stand for, if there are so many selects around it. -/
def scope (q : Select) (depth : Nat) : Env := q.names.zipIdx.map fun n => (n.1, ⟨depth, n.2⟩)

/-- A select that stands somewhere in a query, or is the query. -/
inductive Within (sub : Select) : Select → Prop
  /-- The query itself. -/
  | self : Within sub sub
  /-- Somewhere in a sub-query of a condition. -/
  | condition {q mid : Select} {c : Condition} (mem : c ∈ q.wheres)
      (isSub : c.predicate.subquery? = some mid) (inside : Within sub mid) : Within sub q
  /-- Somewhere in a sub-query of a condition of a join. -/
  | joined {q mid : Select} {j : Join} {c : Condition} (join : j ∈ q.joins) (mem : c ∈ j.on)
      (isSub : c.predicate.subquery? = some mid) (inside : Within sub mid) : Within sub q

variable {q : Select} {name : String} {env : Env} {depth i : Nat}

/-- **A name that is bound once** finds its table. -/
theorem finds_scope (hnodup : q.names.Nodup) (h : q.names[i]? = some name) :
    (q.scope depth ++ env).Finds name ⟨depth, i⟩ := by
  have key : ∀ (ns : List String) (k i : Nat), ns.Nodup → ns[i]? = some name →
      Dict.lookup name ((ns.zipIdx k).map (fun n => (n.1, Place.mk depth n.2)) ++ env) =
        some ⟨depth, k + i⟩ := by
    intro ns
    induction ns with
    | nil => simp
    | cons n ns ih =>
      intro k i hns hi
      obtain ⟨hn, hns⟩ := List.nodup_cons.mp hns
      rw [List.zipIdx_cons, List.map_cons, List.cons_append, Dict.lookup]
      cases i with
      | zero =>
        obtain rfl : n = name := by simpa using hi
        simp
      | succ i =>
        have hmem : name ∈ ns := List.mem_of_getElem? (by simpa using hi)
        have hne : n ≠ name := fun heq => hn (heq ▸ hmem)
        rw [if_neg hne, ih (k + 1) i hns (by simpa using hi), Nat.add_right_comm, Nat.add_assoc]
  have hfound := key q.names 0 i hnodup h
  rwa [Nat.zero_add] at hfound

/-- A name that a select does not bind finds what it finds around the select. -/
theorem finds_behind (hname : name ∉ q.names) {place : Place} (h : env.Finds name place) :
    (q.scope depth ++ env).Finds name place := by
  have hnone : Dict.lookup name (q.scope depth) = none := by
    rw [← Option.not_isSome_iff_eq_none, Dict.lookup_isSome, scope, List.map_map]
    intro hmem
    obtain ⟨n, hn, rfl⟩ := List.mem_map.mp hmem
    exact hname (List.fst_mem_of_mem_zipIdx hn)
  rw [Env.Finds, Dict.lookup_append, hnone, Option.none_or]
  exact h

end Select

/-! ### Anchored queries -/

/-- The sub-query of a relation, with what is nested inside it: the related table goes by `label`,
the table of the declaring side by `parent`, and the table that holds the key of the related side,
which is the pivot table if there is one, by `tied`. -/
def Relation.subquery (r : Relation) (related : Entity) (parent label tied : String)
    (inner : Option Predicate) : Select where
  projection := []
  source := ⟨related.table, some label⟩
  joins := (r.through?.map fun p => pivotJoin p label tied).toList
  wheres := .and (r.keyCondition (.outer parent) (.named tied)) ::
    (r.constraintConditions label ++ (inner.map (Condition.mk .and)).toList)
  orderBy := []

/-- **An anchored condition** on the rows of an entity, whose table stands at the beginning of the
select with so many selects around it. -/
inductive Predicate.Anchored (catalog : Catalog) : Env → Nat → Entity → Predicate → Prop
  /-- A comparison with a value finds the table of the entity. -/
  | test {env : Env} {depth : Nat} {e : Entity} {name field : String} {op : Operator}
      {value : Value} (own : env.Finds name ⟨depth, 0⟩) :
      Anchored catalog env depth e (.forOperator (.named name field) op value)
  /-- In the sub-query of a relation of the entity, what is made for the declaring side finds the
  table around, what is made for the related side the table that is read, and what is made for a
  pivot table its join. What is nested inside is a condition on the related rows. -/
  | level {env : Env} {depth : Nat} {e related : Entity} {r : Relation}
      {parent label tied : String} {inner : Option Predicate} (declared : r ∈ e.relations)
      (leads : catalog.entity? r.related = some related)
      (distinct : (r.subquery related parent label tied inner).names.Nodup)
      (around : ((r.subquery related parent label tied inner).scope (depth + 1) ++ env).Finds
        parent ⟨depth, 0⟩)
      (own : ((r.subquery related parent label tied inner).scope (depth + 1) ++ env).Finds
        label ⟨depth + 1, 0⟩)
      (key : ((r.subquery related parent label tied inner).scope (depth + 1) ++ env).Finds
        tied ⟨depth + 1, r.through?.elim 0 fun _ => 1⟩)
      (nested : ∀ p, inner = some p → Anchored catalog
        ((r.subquery related parent label tied inner).scope (depth + 1) ++ env) (depth + 1)
          related p) :
      Anchored catalog env depth e (.exists (r.subquery related parent label tied inner))

/-- **Anchored joins** along the relations of an order, the first of which starts from the table at
the given position: the conditions of each find the join before, and their own. -/
inductive OrderPath.Anchored (catalog : Catalog) (env : Env) :
    Entity → List String → Nat → List Join → Prop
  /-- Nothing is followed. -/
  | nil (e : Entity) (i : Nat) : Anchored catalog env e [] i []
  /-- A relation is followed, and others from the entity it leads to. -/
  | cons {e related : Entity} {name : String} {names : List String} {i : Nat} {r : Relation}
      {parent label : String} {js : List Join} (relation : e.relation? name = some r)
      (leads : catalog.entity? r.related = some related) (joinable : r.through? = none)
      (before : env.Finds parent ⟨0, i⟩) (own : env.Finds label ⟨0, i + 1⟩)
      (rest : Anchored catalog env related names (i + 1) js) :
      Anchored catalog env e (name :: names) i
        (⟨.left, ⟨related.table, some label⟩, r.joinOn parent label⟩ :: js)

/-- The relations of an order, if there is one. -/
def OrderPath.relations (order : Option OrderPath) : List String :=
  (order.map fun o => o.path.relations).getD []

/-- **An anchored query** for the rows of an entity. -/
structure Select.Anchored (catalog : Catalog) (e : Entity) (order : Option OrderPath)
    (q : Select) : Prop where
  /-- It reads the table of the entity. -/
  source : q.source = ⟨e.table, none⟩
  /-- It returns rows of that table. -/
  projection : ∀ p ∈ q.projection, ∃ name, p = .allOf name ∧ (q.scope 0).Finds name ⟨0, 0⟩
  /-- Its conditions are anchored. -/
  wheres : ∀ c ∈ q.wheres, c.predicate.Anchored catalog (q.scope 0) 0 e
  /-- Its joins are anchored, from the table of the entity on. -/
  joins : OrderPath.Anchored catalog (q.scope 0) e (OrderPath.relations order) 0 q.joins
  /-- It is ordered by a column of the last join. -/
  orderBy : ∀ o ∈ q.orderBy,
    (q.scope 0).Finds o.column.table ⟨0, (OrderPath.relations order).length⟩

/-! ### Names are bound once -/

theorem Predicate.subquery?_forOperator (c : Column) (op : Operator) (value : Value) :
    (Predicate.forOperator c op value).subquery? = none := by
  unfold forOperator
  split <;> rfl

namespace Relation

/-- A key is no sub-query. -/
theorem subquery?_keyCondition (r : Relation) (parent child : String → Column) :
    (r.keyCondition parent child).subquery? = none := by
  unfold keyCondition
  cases r.kind <;> rfl

/-- Constraints are no sub-queries. -/
theorem subquery?_of_mem_constraints {r : Relation} {label : String} {c : Condition}
    (h : c ∈ r.constraintConditions label) : c.predicate.subquery? = none := by
  obtain ⟨d, -, rfl⟩ := List.mem_map.mp h
  exact Predicate.subquery?_forOperator _ _ _

/-- No condition of a join of an order is a sub-query. -/
theorem subquery?_of_mem_joinOn {r : Relation} {parent label : String} {c : Condition}
    (h : c ∈ r.joinOn parent label) : c.predicate.subquery? = none := by
  rcases List.mem_cons.mp h with rfl | h
  · cases r.kind <;> rfl
  · exact subquery?_of_mem_constraints h

end Relation

variable {catalog : Catalog}

/-- **In an anchored condition no select binds a name twice.** -/
theorem Predicate.Anchored.nodup {env : Env} {depth : Nat} {e : Entity} {p : Predicate}
    (h : p.Anchored catalog env depth e) {q sub : Select} (hq : p.subquery? = some q)
    (hsub : sub.Within q) : sub.names.Nodup := by
  induction h generalizing q with
  | test =>
    rw [subquery?_forOperator] at hq
    simp at hq
  | @level env depth e related r parent label tied inner _ _ hdistinct _ _ _ _ ih =>
    obtain rfl : r.subquery related parent label tied inner = q := Option.some.inj hq
    cases hsub with
    | self => exact hdistinct
    | @condition _ mid c hc hmid hinside =>
      -- of the conditions of a level, only what is nested inside is a sub-query
      simp only [Relation.subquery, List.mem_cons, List.mem_append, Option.mem_toList,
        Option.map_eq_some_iff] at hc
      rcases hc with rfl | hc | ⟨p, hp, rfl⟩
      · rw [Condition.and, Relation.subquery?_keyCondition] at hmid
        simp at hmid
      · rw [Relation.subquery?_of_mem_constraints hc] at hmid
        simp at hmid
      · exact ih p hp hmid hinside
    | @joined _ mid j c hj hc hmid hinside =>
      simp only [Relation.subquery, Option.mem_toList, Option.map_eq_some_iff] at hj
      obtain ⟨p, -, rfl⟩ := hj
      obtain rfl : c = _ := List.mem_singleton.mp hc
      simp [Condition.and, columnsEq, subquery?] at hmid

/-- In an anchored query no select binds a name twice, if the outermost does not. -/
theorem Select.Anchored.nodup {e : Entity} {order : Option OrderPath} {q sub : Select}
    (h : q.Anchored catalog e order) (hq : q.names.Nodup) (hsub : sub.Within q) :
    sub.names.Nodup := by
  have hjoins : ∀ {env : Env} {e : Entity} {names : List String} {i : Nat} {js : List Join},
      OrderPath.Anchored catalog env e names i js → ∀ j ∈ js, ∀ c ∈ j.on,
        c.predicate.subquery? = none := by
    intro env e names i js hjs
    induction hjs with
    | nil => simp
    | cons _ _ _ _ _ _ ih =>
      intro j hj c hc
      rcases List.mem_cons.mp hj with rfl | hj
      · exact Relation.subquery?_of_mem_joinOn hc
      · exact ih j hj c hc
  cases hsub with
  | self => exact hq
  | condition hc hmid hinside => exact (h.wheres _ hc).nodup hmid hinside
  | joined hj hc hmid hinside =>
    rw [hjoins h.joins _ hj _ hc] at hmid
    simp at hmid

/-! ### Conditions of filters -/

/-- **A foothold**: the name that the table of an entity goes by finds that table, and nothing
further in can take the name. -/
structure Foothold (env : Env) (depth : Nat) (e : Entity) (qualifier : String)
    (supply : AliasSupply) : Prop where
  /-- The name finds the table. -/
  found : env.Finds qualifier ⟨depth, 0⟩
  /-- It is not an alias that is still to be taken. -/
  fresh : ∀ n, supply.next ≤ n → qualifier ≠ AliasSupply.name supply.stem n
  /-- It is not a pivot table of the entity. -/
  clear : ∀ r ∈ e.relations, ∀ p, r.through? = some p → p.table ≠ qualifier

namespace Foothold

variable {supply : AliasSupply} {env : Env} {depth : Nat} {e : Entity} {qualifier name : String}

/-- The table that a query reads is a foothold. -/
theorem root (ha : catalog.Avoids supply.stem) (hp : catalog.PivotsApart)
    (he : catalog.entity? name = some e) (hfound : env.Finds e.table ⟨depth, 0⟩) :
    Foothold env depth e e.table supply where
  found := hfound
  fresh n _ := ha.table_ne he n
  clear r hr p hrp := hp.parent_ne he r hr p hrp

/-- An alias that is just taken is a foothold, once it is bound. -/
theorem taken (ha : catalog.Avoids supply.stem) (he : catalog.entity? name = some e)
    (hfound : env.Finds supply.current ⟨depth, 0⟩) :
    Foothold env depth e supply.current supply.taken where
  found := hfound
  fresh n hn h := by
    have hnum : supply.next = n := AliasSupply.name_inj.mp h
    simp only [AliasSupply.next_taken] at hn
    omega
  clear r hr p hrp := ha.pivot_ne he r hr p hrp supply.next

/-- A foothold stays one when further aliases are taken. -/
theorem after (h : Foothold env depth e qualifier supply) (k : Nat) :
    Foothold env depth e qualifier (supply.after k) where
  found := h.found
  fresh n hn := h.fresh n (Nat.le_trans (Nat.le_add_right _ k) hn)
  clear := h.clear

end Foothold

namespace Filter

variable {supply : AliasSupply} {env : Env} {depth : Nat} {e : Entity} {qualifier name : String}

/-- A level with something nested inside is the sub-query of its relation. -/
theorem level_eq_subquery (st : Step) (qualifier label : String) (inner : Option Predicate) :
    (st.level qualifier label).addPredicate? .and inner =
      st.relation.subquery st.related qualifier label (st.tied label) inner := by
  rw [level_addPredicate?]
  rfl

/-- The names of the sub-query of a relation are that of the related table and that of the pivot
table, if there is one. -/
theorem names_subquery (r : Relation) (related : Entity) (parent label tied : String)
    (inner : Option Predicate) : (r.subquery related parent label tied inner).names =
      label :: (r.through?.map Pivot.table).toList := by
  cases hthrough : r.through? <;>
    simp [Select.names, Relation.subquery, hthrough, Source.qualifier, Relation.pivotJoin]

/-- **One level is anchored** on a foothold, if what is nested inside is anchored on its alias. -/
theorem anchored_level (ha : catalog.Avoids supply.stem) (hp : catalog.PivotsApart)
    (he : catalog.entity? name = some e) (foothold : Foothold env depth e qualifier supply)
    {st : Step} (hst : st.relation ∈ e.relations)
    (hrelated : catalog.entity? st.relation.related = some st.related) {inner : Option Predicate}
    (hinner : ∀ env' : Env, Foothold env' (depth + 1) st.related supply.current supply.taken →
      ∀ p, inner = some p → p.Anchored catalog env' (depth + 1) st.related) :
    (Predicate.exists ((st.level qualifier supply.current).addPredicate? .and inner)).Anchored
      catalog env depth e := by
  rw [level_eq_subquery]
  have hnames := names_subquery st.relation st.related qualifier supply.current
    (st.tied supply.current) inner
  -- neither the alias nor the pivot table takes the name of the other, or that of the foothold
  have hqualifier : qualifier ≠ supply.current := foothold.fresh _ (Nat.le_refl _)
  have hpivot : ∀ p, st.relation.through? = some p →
      p.table ≠ supply.current ∧ p.table ≠ qualifier :=
    fun p hthrough => ⟨ha.pivot_ne he _ hst p hthrough supply.next, foothold.clear _ hst p hthrough⟩
  have hdistinct : (st.relation.subquery st.related qualifier supply.current
      (st.tied supply.current) inner).names.Nodup := by
    rw [hnames]
    cases hthrough : st.relation.through? with
    | none => simp
    | some p => simpa using (hpivot p hthrough).1.symm
  have hparent : qualifier ∉ (st.relation.subquery st.related qualifier supply.current
      (st.tied supply.current) inner).names := by
    rw [hnames]
    cases hthrough : st.relation.through? with
    | none => simpa using hqualifier
    | some p => simpa using ⟨hqualifier, (hpivot p hthrough).2.symm⟩
  have hown : ((st.relation.subquery st.related qualifier supply.current
      (st.tied supply.current) inner).scope (depth + 1) ++ env).Finds supply.current
        ⟨depth + 1, 0⟩ := Select.finds_scope hdistinct (by rw [hnames]; rfl)
  refine .level hst hrelated hdistinct (Select.finds_behind hparent foothold.found) hown ?_
    (hinner _ (Foothold.taken ha hrelated hown))
  cases hthrough : st.relation.through? with
  | none =>
    rw [Step.tied_of_direct hthrough] at hown ⊢
    exact hown
  | some p =>
    have htied := Step.tied_of_through hthrough (hp.related_ne he _ hst p hthrough _ hrelated)
    exact Select.finds_scope hdistinct (by rw [hnames, hthrough, htied]; rfl)

/-- **A route is anchored** on a foothold. -/
theorem anchored_route (ha : catalog.Avoids supply.stem) (hp : catalog.PivotsApart)
    {policy : HiddenFieldPolicy} (leaf : Leaf) {path : List String}
    (he : catalog.entity? name = some e) (foothold : Foothold env depth e qualifier supply)
    {r : List Step × Bool} (hr : route catalog policy leaf.field path e = .ok r) {p : Predicate}
    (h : (Clause.ofRoute leaf r).predicate? qualifier supply = some p) :
    p.Anchored catalog env depth e := by
  induction path generalizing env depth name e qualifier supply r p with
  | nil =>
    obtain rfl := route_nil hr
    cases hhidden : e.isHidden leaf.field with
    | true => simp [hhidden, Clause.predicate?, Clause.ofRoute, Clause.nested] at h
    | false =>
      rw [hhidden] at h
      obtain rfl : Clause.test qualifier leaf = p := Option.some.inj h
      exact .test foothold.found
  | cons first rest ih =>
    rcases route_cons_cases hr with
      ⟨relation, -, -, rfl⟩ | ⟨st, r', rfl, hrel, -, hent, hr', rfl⟩
    · simp [Clause.predicate?, Clause.ofRoute, Clause.nested] at h
    · obtain rfl := (Option.some.inj h).symm
      exact anchored_level ha hp he foothold (Entity.mem_of_relation? hrel) hent
        fun env' foothold' p' hp' =>
          ih (show catalog.Avoids supply.taken.stem from ha) hent foothold' hr' hp'

end Filter

namespace Searcher

variable {s : Searcher} {env : Env} {depth : Nat} {supply : AliasSupply} {e : Entity}
  {name : String}

/-- **The conditions of criteria are anchored** on the table of their entity. -/
theorem anchored_conditions (ha : s.catalog.Avoids supply.stem) (hp : s.catalog.PivotsApart)
    (he : s.catalog.entity? name = some e) (foothold : Foothold env depth e e.table supply)
    {item position : Nat} {cs : List Criterion} {cls : List (Combinator × Filter.Clause)}
    (h : s.clauses item e position cs = .ok cls) :
    ∀ c ∈ Plan.conditions e.table cls supply, c.predicate.Anchored s.catalog env depth e := by
  induction cs generalizing position cls supply with
  | nil =>
    rw [clauses] at h
    rw [← Except.ok.inj h]
    simp [Plan.conditions]
  | cons c cs ih =>
    obtain ⟨path, op, value, cl, cls', -, hcl, hcls, rfl⟩ := clauses_cons_cases h
    intro d hd
    rcases List.mem_append.mp hd with hd | hd
    · rw [Option.mem_toList, Option.map_eq_some_iff] at hd
      obtain ⟨p, hsome, rfl⟩ := hd
      rcases clause_cases hcl with ⟨r, hr, rfl⟩ | rfl
      · exact Filter.anchored_route ha hp ⟨path.field, op, value⟩ he foothold hr hsome
      · obtain rfl := (Option.some.inj hsome).symm
        exact .test foothold.found
    · exact ih (show s.catalog.Avoids (supply.after cl.steps.length).stem from ha)
        (foothold.after _) hcls d hd

end Searcher

/-! ### Joins of orders -/

namespace OrderPath

variable {supply : AliasSupply} {env : Env} {e : Entity} {names : List String}
  {links : List Link} {parent : String} {i : Nat}

/-- The names that the joins of a chain go by are the next aliases. -/
theorem names_chainJoins (links : List Link) (parent : String) (supply : AliasSupply) :
    (chainJoins links parent supply).map (fun j => j.source.qualifier) =
      (List.range' supply.next links.length).map (AliasSupply.name supply.stem) := by
  induction links generalizing parent supply with
  | nil => rfl
  | cons l links ih =>
    rw [chainJoins, List.map_cons, ih, List.length_cons, List.range'_succ, List.map_cons]
    rfl

/-- **The joins of a chain are anchored** if its parent and its aliases find their tables, and the
end of the chain finds the last of them. -/
theorem anchored_chain (h : catalog.Follows e names links) (hparent : env.Finds parent ⟨0, i⟩)
    (hlabels : ∀ k < links.length,
      env.Finds (AliasSupply.name supply.stem (supply.next + k)) ⟨0, i + k + 1⟩) :
    OrderPath.Anchored catalog env e names i (chainJoins links parent supply) ∧
      env.Finds (chainEnd links parent supply) ⟨0, i + names.length⟩ := by
  induction h generalizing parent supply i with
  | nil e => exact ⟨.nil e i, hparent⟩
  | @cons e name names l links hrel hent hjoinable _ ih =>
    have hown : env.Finds supply.current ⟨0, i + 1⟩ := hlabels 0 (Nat.zero_lt_succ _)
    have hbehind : ∀ k < links.length, env.Finds
        (AliasSupply.name supply.taken.stem (supply.taken.next + k)) ⟨0, i + 1 + k + 1⟩ := by
      intro k hk
      have hnext := hlabels (k + 1) (Nat.succ_lt_succ hk)
      rwa [← Nat.add_assoc, Nat.add_right_comm _ k 1, ← Nat.add_assoc,
        Nat.add_right_comm i k 1] at hnext
    have hrest := ih hown hbehind
    refine ⟨.cons hrel hent hjoinable hparent hown hrest.1, ?_⟩
    have hend := hrest.2
    rw [Nat.add_right_comm, Nat.add_assoc] at hend
    exact hend

end OrderPath

/-! ### Queries that are returned -/

namespace Searcher

variable {s : Searcher} {index : Nat} {item : SearchItem} {order : Option OrderPath} {p : Plan}

/-- The relations of the order of a plan are those of its links. -/
theorem follows_of_plan (h : s.plan index item order = .ok p) :
    s.catalog.Follows p.entity (OrderPath.relations order) p.links := by
  cases order with
  | none =>
    obtain ⟨-, -, horder⟩ := plan_cases h
    have hnone : p.order = none := (Except.ok.inj horder).symm
    rw [Plan.links, hnone]
    exact .nil _
  | some o =>
    obtain ⟨ls, hls, hfollows⟩ := order_of_plan h
    rw [Plan.links, hls]
    exact hfollows

/-- **The query of a plan is anchored**, and its tables go by different names. -/
theorem anchored_of_plan (he : s.catalog.Avoids existsStem) (hj : s.catalog.Avoids joinStem)
    (hp : s.catalog.PivotsApart) (h : s.plan index item order = .ok p) (filters joins : Nat) :
    (p.query ⟨.after .forExists filters, .after .forJoins joins⟩).names.Nodup ∧
      (p.query ⟨.after .forExists filters, .after .forJoins joins⟩).Anchored s.catalog p.entity
        order := by
  obtain ⟨-, hclauses, -⟩ := plan_cases h
  obtain ⟨name, hent⟩ := entity_of_plan h
  have hfollows := follows_of_plan h
  generalize hq : p.query ⟨.after .forExists filters, .after .forJoins joins⟩ = q
  have hnames : q.names = p.entity.table :: (List.range' (AliasSupply.forJoins.after joins).next
      p.links.length).map (AliasSupply.name joinStem) := by
    rw [← hq, Select.names, Plan.query, OrderPath.names_chainJoins]
    rfl
  have hdistinct : q.names.Nodup := by
    rw [hnames, List.nodup_cons]
    refine ⟨fun hmem => ?_, List.Nodup.map (fun _ _ => AliasSupply.name_inj.mp) List.nodup_range'⟩
    obtain ⟨n, -, hn⟩ := List.mem_map.mp hmem
    exact hj.table_ne hent n hn.symm
  have hfinds : ∀ {i : Nat} {name : String}, q.names[i]? = some name →
      (q.scope 0).Finds name ⟨0, i⟩ := by
    intro i name hi
    have hfound : (q.scope 0 ++ []).Finds name ⟨0, i⟩ := Select.finds_scope hdistinct hi
    rwa [List.append_nil] at hfound
  have hroot : (q.scope 0).Finds p.entity.table ⟨0, 0⟩ := hfinds (by rw [hnames]; rfl)
  have hlabels : ∀ k < p.links.length, (q.scope 0).Finds
      (AliasSupply.name (AliasSupply.forJoins.after joins).stem
        ((AliasSupply.forJoins.after joins).next + k)) ⟨0, 0 + k + 1⟩ := by
    intro k hk
    refine hfinds ?_
    rw [hnames, List.getElem?_cons_succ, List.getElem?_map, Nat.zero_add,
      List.getElem?_range' hk, Nat.one_mul]
    rfl
  obtain ⟨hjoins, hend⟩ := OrderPath.anchored_chain hfollows hroot hlabels
  refine ⟨hdistinct, ?_⟩
  subst hq
  exact {
    source := rfl
    projection := by
      intro proj hproj
      exact ⟨p.entity.table, List.mem_singleton.mp hproj, hroot⟩
    wheres := anchored_conditions he hp hent (Foothold.root he hp hent hroot) hclauses
    joins := hjoins
    orderBy := by
      intro o ho
      simp only [Plan.query, Plan.orderTerms, Option.mem_toList, Option.map_eq_some_iff] at ho
      obtain ⟨ol, hol, rfl⟩ := ho
      have hlinks : p.links = ol.2 := by simp [Plan.links, hol]
      rwa [hlinks, Nat.zero_add] at hend }

/-- **Every reference finds its table.** In a catalog that has no table spelled like an alias and
no pivot table that is the table of an entity it relates, no select of a query that is returned
binds a name twice, and every qualifier in it, looked up from the inside out, finds the table that
it was made for. -/
theorem anchored_of_compile (he : s.catalog.Avoids existsStem) (hj : s.catalog.Avoids joinStem)
    (hp : s.catalog.PivotsApart) {request : SearchRequest} {q : Select}
    (h : s.compile request order = .ok q) :
    (∀ sub : Select, sub.Within q → sub.names.Nodup) ∧
      ∃ (item : SearchItem) (e : Entity), request.items.getLast? = some item ∧
        s.catalog.resolve? (item.key?.getD "") = some e ∧ q.Anchored s.catalog e order := by
  obtain ⟨index, item, p, filters, joins, hlast, hplan, rfl⟩ := written_of_compile h
  obtain ⟨hdistinct, hanchored⟩ := anchored_of_plan he hj hp hplan filters joins
  exact ⟨fun sub hsub => hanchored.nodup hdistinct hsub, item, p.entity, hlast,
    resolve?_of_entityOf (plan_cases hplan).1, hanchored⟩

/-- The theorem at a search through a pivot table two levels down, ordered by a relation that leads
back to the table that is searched. -/
theorem anchored_of_compile_blog :
    ∃ q, Blog.searcher.compile ⟨[Blog.admins]⟩ (some (.ofText "manager.name" .asc)) = .ok q ∧
      (∀ sub : Select, sub.Within q → sub.names.Nodup) ∧
        ∃ (item : SearchItem) (e : Entity), [Blog.admins].getLast? = some item ∧
          Blog.catalog.resolve? (item.key?.getD "") = some e ∧
            q.Anchored Blog.catalog e (some (.ofText "manager.name" .asc)) := by
  have hcompile : ∃ q, Blog.searcher.compile ⟨[Blog.admins]⟩
      (some (.ofText "manager.name" .asc)) = .ok q := ⟨_, rfl⟩
  obtain ⟨q, hq⟩ := hcompile
  exact ⟨q, hq, anchored_of_compile (Blog.avoids (Or.inl rfl)) (Blog.avoids (Or.inr rfl))
    Blog.pivotsApart hq⟩

end Searcher

/-! ### A pivot table that is the related table

The members of a club, whose memberships are related to them through the table of memberships
itself. The configuration is accepted, and the pivot table is joined under its own name, but the
columns that were made for it are pointed at the alias of the related table. -/

namespace Club

/-- A member. -/
def user : Entity where
  name := "User"
  table := "users"
  searchable := true
  allowed := .empty
  hidden := .empty
  relations :=
    [.belongsToMany "memberships" "Membership" "memberships" "user_id" "membership_id"]

/-- A membership. -/
def membership : Entity := .ofTable "Membership" "memberships"

/-- The configuration. -/
def configuration : Configuration :=
  ⟨Dict.ofList [("user", "User")], [user, membership], .drop⟩

/-- A search for members by the level of a membership. -/
def gold : SearchRequest :=
  ⟨[⟨some "user", some [⟨some "memberships.level", some "=", some (.string "gold"), false⟩]⟩]⟩

/-- The sub-query that the search is compiled to: its join has no column of the joined table. -/
def captured : Select where
  projection := []
  source := ⟨"memberships", some "wherehas_0"⟩
  joins := [⟨.inner, ⟨"memberships", none⟩, [.and (.columnsEq (.named "wherehas_0" "id")
    (.named "wherehas_0" "membership_id"))]⟩]
  wheres := [.and (.columnsEq (.outer "users" "id") (.named "wherehas_0" "user_id")),
    .and (.compare (.named "wherehas_0" "level") .eq (.string "gold"))]
  orderBy := []

/-- The query that the search is compiled to. -/
def query : Select :=
  ⟨[.allOf "users"], ⟨"users", none⟩, [], [.and (.exists captured)], []⟩

end Club

/-- An anchored sub-query finds the join of its pivot table under the name in that join. -/
theorem Predicate.Anchored.finds_pivot {env : Env} {depth : Nat} {e : Entity} {sub : Select}
    (h : (Predicate.exists sub).Anchored catalog env depth e) {pivot : Pivot}
    {label tied : String} (hjoin : Relation.pivotJoin pivot label tied ∈ sub.joins) :
    (sub.scope (depth + 1) ++ env).Finds tied ⟨depth + 1, 1⟩ := by
  generalize hp : Predicate.exists sub = p at h
  cases h with
  | test =>
    have hsub := congrArg Predicate.subquery? hp
    rw [subquery?_forOperator] at hsub
    simp [subquery?] at hsub
  | @level _ _ _ related r parent label' tied' inner _ _ _ _ _ hkey _ =>
    obtain rfl : sub = r.subquery related parent label' tied' inner := Predicate.exists.inj hp
    simp only [Relation.subquery, Option.mem_toList, Option.map_eq_some_iff] at hjoin
    obtain ⟨p', hthrough, heq⟩ := hjoin
    rw [hthrough] at hkey
    -- the name in the join is the one that the key is tied to
    obtain rfl : tied' = tied := by
      simp only [Relation.pivotJoin, Join.mk.injEq, List.cons.injEq, Condition.and,
        Condition.mk.injEq, Predicate.columnsEq, Predicate.columns.injEq, Column.named,
        Column.mk.injEq] at heq
      tauto
    exact hkey

/-- **A pivot table that is the related table is captured.** The configuration is accepted and the
search compiles, but what was made for the pivot table finds the related table. -/
theorem Club.not_anchored :
    ∃ (s : Searcher) (q : Select), Searcher.ofConfiguration Club.configuration = .ok s ∧
      s.compile Club.gold none = .ok q ∧ ∀ e, ¬q.Anchored s.catalog e none := by
  refine ⟨_, Club.query, rfl, rfl, fun e h => ?_⟩
  have hsub := h.wheres _ List.mem_cons_self
  have hpivot := Predicate.Anchored.finds_pivot hsub
    (show Relation.pivotJoin ⟨"memberships", "membership_id", "id"⟩ "wherehas_0" "wherehas_0" ∈
      Club.captured.joins from List.mem_cons_self)
  have hfirst : ((Club.captured.scope 1) ++ Club.query.scope 0).Finds "wherehas_0" ⟨1, 0⟩ := rfl
  have hsame := hfirst.symm.trans hpivot
  simp at hsame

end DottedQuery
