import DottedQuery.Proofs.Search.Chain
import DottedQuery.Search.Searcher
import Mathlib.Algebra.GroupWithZero.Nat
import Mathlib.Data.List.Forall2

/-!
# Plans of items

Compiling an item takes two supplies of aliases and hands them on. What it does *apart* from
that is its **plan** (`DottedQuery.Searcher.plan`): the entity, one clause for every criterion,
and the chain of the order. Everything that can fail fails while the plan is made, and the plan
knows no alias. The query is then written from the plan (`DottedQuery.Plan.query`), all at once:
its table, its joins, its conditions and its order stand side by side.

* `DottedQuery.Searcher.compileItem_eq` – an item compiles to its plan, written out;
* `DottedQuery.Searcher.compileItems_eq` – a list of items compiles to its plans, written out
  one after another, each with the supplies that the one before it leaves.
-/

namespace DottedQuery

open DottedQuery.Filter (Clause)

/-! ### Plans -/

/-- The supply-free part of the compilation of an item. -/
structure Plan where
  /-- The entity that is searched. -/
  entity : Entity
  /-- What is left of each criterion, with its combinator. -/
  clauses : List (Combinator × Clause)
  /-- The order that is asked for and its chain. -/
  order : Option (OrderPath × List OrderPath.Link)

namespace Plan

/-- The number of aliases that clauses take. -/
def clauseAliases (cs : List (Combinator × Clause)) : Nat := (cs.map fun c => c.2.steps.length).sum

@[simp] theorem clauseAliases_nil : clauseAliases [] = 0 := rfl

@[simp] theorem clauseAliases_cons (c : Combinator × Clause) (cs : List (Combinator × Clause)) :
    clauseAliases (c :: cs) = c.2.steps.length + clauseAliases cs := rfl

/-- The conditions of clauses on a table, in their order. -/
def conditions (table : String) : List (Combinator × Clause) → AliasSupply → List Condition
  | [], _ => []
  | c :: cs, supply =>
    ((c.2.predicate? table supply).map (Condition.mk c.1)).toList ++
      conditions table cs (supply.after c.2.steps.length)

/-- The number of aliases of sub-queries that a plan takes. -/
def filterAliases (p : Plan) : Nat := clauseAliases p.clauses

/-- The links of the order. -/
def links (p : Plan) : List OrderPath.Link := (p.order.map Prod.snd).getD []

/-- The number of aliases of joined tables that a plan takes. -/
def joinAliases (p : Plan) : Nat := p.links.length

/-- The term of the order. -/
def orderTerms (p : Plan) (supply : AliasSupply) : List OrderTerm :=
  (p.order.map fun o => OrderTerm.mk
    (.named (OrderPath.chainEnd o.2 p.entity.table supply) o.1.path.field) o.1.direction).toList

/-- **The query of a plan.** -/
def query (p : Plan) (s : Searcher.Supplies) : Select where
  projection := [.allOf p.entity.table]
  source := ⟨p.entity.table, none⟩
  joins := OrderPath.chainJoins p.links p.entity.table s.joins
  wheres := conditions p.entity.table p.clauses s.filters
  orderBy := p.orderTerms s.joins

/-- The supplies that a plan leaves. -/
def after (p : Plan) (s : Searcher.Supplies) : Searcher.Supplies :=
  ⟨s.filters.after p.filterAliases, s.joins.after p.joinAliases⟩

/-- The query of the last of some plans, written one after another; `q` is the query of the plan
before them. -/
def lastQuery : List Plan → Searcher.Supplies → Option Select → Option Select
  | [], _, q => q
  | p :: ps, s, _ => lastQuery ps (p.after s) (some (p.query s))

/-- The last of some plans finds the supplies that those before it leave. -/
theorem lastQuery_append (ps : List Plan) (p : Plan) (s : Searcher.Supplies) (q : Option Select) :
    lastQuery (ps ++ [p]) s q = some (p.query (ps.foldl (fun s p => p.after s) s)) := by
  induction ps generalizing s q with
  | nil => rfl
  | cons p' ps ih => exact ih (p'.after s) (some (p'.query s))

/-- A change of plans that leaves the supplies as they are, and that `see` does not tell from the
queries of plans, it does not tell from the last query either. -/
theorem map_lastQuery {β : Type} {change : Plan → Plan} {see : Select → β}
    (hquery : ∀ p s, see ((change p).query s) = see (p.query s))
    (hafter : ∀ p s, (change p).after s = p.after s) (ps : List Plan) (s : Searcher.Supplies)
    {q q' : Option Select} (h : q.map see = q'.map see) :
    (lastQuery (ps.map change) s q).map see = (lastQuery ps s q').map see := by
  induction ps generalizing s q q' with
  | nil => exact h
  | cons p ps ih =>
    rw [List.map_cons, lastQuery, lastQuery, hafter]
    exact ih (p.after s) (congrArg some (hquery p s))

end Plan

namespace Searcher

variable (s : Searcher)

/-! ### Making a plan -/

/-- What is left of a criterion on an entity. -/
def clause (entity : Entity) (path : FieldPath) (op : Operator) (value : Value) :
    Except SearchError Clause :=
  if path.isRelational then
    (Filter.route s.catalog s.policy path.field path.relations entity).map
      (Clause.ofRoute ⟨path.field, op, value⟩)
  else .ok ⟨[], some ⟨path.field, op, value⟩⟩

/-- What is left of criteria, the first of them at the given position of the item. -/
def clauses (item : Nat) (entity : Entity) :
    Nat → List Criterion → Except SearchError (List (Combinator × Clause))
  | _, [] => .ok []
  | position, c :: cs =>
    match parts? c with
    | none => .error (.malformedCriterion item position)
    | some (path, op, value) =>
      match s.clause entity path op value with
      | .error fault => .error fault
      | .ok cl => (clauses item entity (position + 1) cs).map ((combinator position c, cl) :: ·)

/-- The order of a plan. -/
def orderOf (entity : Entity) :
    Option OrderPath → Except SearchError (Option (OrderPath × List OrderPath.Link))
  | none => .ok none
  | some order => (order.links s.catalog entity).map fun ls => some (order, ls)

/-- **The plan of an item.** -/
def plan (index : Nat) (item : SearchItem) (order : Option OrderPath) : Except SearchError Plan :=
  match s.entityOf item with
  | .error fault => .error fault
  | .ok entity =>
    match s.clauses index entity 0 item.criteriaList with
    | .error fault => .error fault
    | .ok cs => (s.orderOf entity order).map fun o => ⟨entity, cs, o⟩

/-- The plans of items, the first of which has the given index. -/
def plans (order : Option OrderPath) : Nat → List SearchItem → Except SearchError (List Plan)
  | _, [] => .ok []
  | index, item :: items =>
    match s.plan index item order with
    | .error fault => .error fault
    | .ok p => (plans order (index + 1) items).map (p :: ·)

/-! ### Stage by stage

The same definitions, each stage as one that goes on with what the stage before it comes to. -/

theorem clauses_cons_eq_bind {c : Criterion} {path : FieldPath} {op : Operator} {value : Value}
    (hp : parts? c = some (path, op, value)) (item position : Nat) (entity : Entity)
    (cs : List Criterion) :
    s.clauses item entity position (c :: cs) = (s.clause entity path op value).bind fun cl =>
      (s.clauses item entity (position + 1) cs).map ((combinator position c, cl) :: ·) := by
  simp only [clauses, hp]
  cases s.clause entity path op value <;> rfl

theorem plan_eq_bind {item : SearchItem} {entity : Entity} (he : s.entityOf item = .ok entity)
    (index : Nat) (order : Option OrderPath) :
    s.plan index item order = (s.clauses index entity 0 item.criteriaList).bind fun cs =>
      (s.orderOf entity order).map fun o => ⟨entity, cs, o⟩ := by
  simp only [plan, he]
  cases s.clauses index entity 0 item.criteriaList <;> rfl

theorem plans_cons_eq_bind (order : Option OrderPath) (index : Nat) (item : SearchItem)
    (items : List SearchItem) :
    s.plans order index (item :: items) = (s.plan index item order).bind fun p =>
      (s.plans order (index + 1) items).map (p :: ·) := by
  simp only [plans]
  cases s.plan index item order <;> rfl

/-! ### What a plan was made from -/

variable {s}

/-- The path among the parts of a criterion is its path. -/
theorem path_of_parts {c : Criterion} {path : FieldPath} {op : Operator} {value : Value}
    (h : parts? c = some (path, op, value)) : c.path? = some path := by
  simp only [parts?, Option.bind_eq_bind, Option.bind_eq_some_iff] at h
  obtain ⟨o, -, v, -, p, hp, heq⟩ := h
  obtain ⟨rfl, rfl, rfl⟩ : p = path ∧ o = op ∧ v = value := by simpa using heq
  exact hp

/-- The entity of an item is the one under its search key. -/
theorem resolve?_of_entityOf {item : SearchItem} {e : Entity} (h : s.entityOf item = .ok e) :
    s.catalog.resolve? (item.key?.getD "") = some e := by
  simp only [entityOf] at h
  split at h
  · simp at h
  · next e' hres =>
    split at h
    · rw [hres, Except.ok.inj h]
    · simp at h

/-- The clauses of criteria begin with that of the first one, which has all its parts. -/
theorem clauses_cons_cases {item position : Nat} {e : Entity} {c : Criterion}
    {cs : List Criterion} {cls : List (Combinator × Clause)}
    (h : s.clauses item e position (c :: cs) = .ok cls) :
    ∃ path op value cl cls', parts? c = some (path, op, value) ∧
      s.clause e path op value = .ok cl ∧ s.clauses item e (position + 1) cs = .ok cls' ∧
      cls = (combinator position c, cl) :: cls' := by
  simp only [clauses] at h
  cases hparts : parts? c with
  | none => simp [hparts] at h
  | some p =>
    obtain ⟨path, op, value⟩ := p
    simp only [hparts] at h
    cases hcl : s.clause e path op value with
    | error fault => simp [hcl] at h
    | ok cl =>
      simp only [hcl] at h
      obtain ⟨cls', hcls, rfl⟩ := map_eq_ok_iff.mp h
      exact ⟨path, op, value, cl, cls', rfl, hcl, hcls, rfl⟩

/-- A clause is that of a route, or compares a field of the entity itself. -/
theorem clause_cases {e : Entity} {path : FieldPath} {op : Operator} {value : Value} {cl : Clause}
    (h : s.clause e path op value = .ok cl) :
    (∃ r, Filter.route s.catalog s.policy path.field path.relations e = .ok r ∧
      cl = Clause.ofRoute ⟨path.field, op, value⟩ r) ∨ cl = ⟨[], some ⟨path.field, op, value⟩⟩ := by
  unfold clause at h
  split at h
  · obtain ⟨r, hr, rfl⟩ := map_eq_ok_iff.mp h
    exact Or.inl ⟨r, hr, rfl⟩
  · exact Or.inr (Except.ok.inj h).symm

/-- The parts of a plan are the entity of the item, the clauses of its criteria and the order. -/
theorem plan_cases {index : Nat} {item : SearchItem} {order : Option OrderPath} {p : Plan}
    (h : s.plan index item order = .ok p) :
    s.entityOf item = .ok p.entity ∧
      s.clauses index p.entity 0 item.criteriaList = .ok p.clauses ∧
      s.orderOf p.entity order = .ok p.order := by
  unfold plan at h
  cases he : s.entityOf item with
  | error fault => simp [he] at h
  | ok e =>
    simp only [he] at h
    cases hcs : s.clauses index e 0 item.criteriaList with
    | error fault => simp [hcs] at h
    | ok cs =>
      simp only [hcs] at h
      obtain ⟨o, ho, rfl⟩ := map_eq_ok_iff.mp h
      exact ⟨rfl, hcs, ho⟩

/-- The plans of items begin with that of the first one. -/
theorem plans_cons_cases {order : Option OrderPath} {index : Nat} {item : SearchItem}
    {items : List SearchItem} {ps : List Plan}
    (h : s.plans order index (item :: items) = .ok ps) :
    ∃ p ps', ps = p :: ps' ∧ s.plan index item order = .ok p ∧
      s.plans order (index + 1) items = .ok ps' := by
  simp only [plans] at h
  split at h
  · simp at h
  · next p hp =>
    obtain ⟨ps', hps, rfl⟩ := map_eq_ok_iff.mp h
    exact ⟨p, ps', rfl, hp, hps⟩

/-- The entity of a plan is one of the catalog. -/
theorem entity_of_plan {index : Nat} {item : SearchItem} {order : Option OrderPath} {p : Plan}
    (h : s.plan index item order = .ok p) : ∃ name, s.catalog.entity? name = some p.entity := by
  obtain ⟨hentity, -, -⟩ := plan_cases h
  obtain ⟨name, -, hent⟩ := Option.bind_eq_some_iff.mp (resolve?_of_entityOf hentity)
  exact ⟨name, hent⟩

variable (s)

/-! ### Criteria are their clauses, written out -/

/-- A criterion adds the predicate of its clause, if there is one, and takes its aliases. -/
theorem applyCriterion_eq (entity : Entity) (comb : Combinator) (path : FieldPath) (op : Operator)
    (value : Value) (q : Select) (supply : AliasSupply) :
    s.applyCriterion entity comb path op value q supply =
      (s.clause entity path op value).map fun cl =>
        (q.addPredicate? comb (cl.predicate? entity.table supply),
          supply.after cl.steps.length) := by
  unfold applyCriterion clause
  split
  · next hrel =>
    have hpath : path.relations ≠ [] := by simpa [FieldPath.isRelational] using hrel
    rw [Filter.walk_eq _ _ hpath]
    cases hr : Filter.route s.catalog s.policy path.field path.relations entity with
    | error fault => rfl
    | ok r =>
      obtain ⟨steps, b⟩ := r
      cases steps with
      | nil =>
        -- nothing is followed, so nothing is compared
        obtain ⟨name, rest, hcons⟩ := List.exists_cons_of_ne_nil hpath
        rw [hcons] at hr
        obtain rfl := Filter.snd_of_route_cons hr
        rfl
      | cons st steps => rfl
  · rfl

/-- Adding the conditions of clauses one after another is adding their list. -/
theorem applyCriteria_eq (item : Nat) (entity : Entity) (position : Nat) (cs : List Criterion)
    (q : Select) (supply : AliasSupply) :
    s.applyCriteria item entity position cs q supply =
      (s.clauses item entity position cs).map fun cls =>
        ({ q with wheres := q.wheres ++ Plan.conditions entity.table cls supply },
          supply.after (Plan.clauseAliases cls)) := by
  induction cs generalizing position q supply with
  | nil =>
    cases q
    simp [applyCriteria, clauses, Except.map, Plan.conditions]
  | cons c cs ih =>
    simp only [applyCriteria, clauses]
    cases parts? c with
    | none => rfl
    | some p =>
      obtain ⟨path, op, value⟩ := p
      simp only [applyCriterion_eq]
      cases s.clause entity path op value with
      | error fault => rfl
      | ok cl =>
        simp only [Except.map, ih]
        cases s.clauses item entity (position + 1) cs with
        | error fault => rfl
        | ok cls =>
          cases hp : cl.predicate? entity.table supply <;>
            simp [Plan.conditions, hp, Select.addCondition, AliasSupply.after_after]

/-- An order adds the joins and the term of its chain. -/
theorem applyOrder_eq (entity : Entity) (order : Option OrderPath) (q : Select)
    (supply : AliasSupply) :
    s.applyOrder entity order q supply =
      (s.orderOf entity order).map fun o =>
        (o.elim q fun o => o.1.addLinks o.2 entity.table q supply,
          supply.after ((o.map Prod.snd).getD []).length) := by
  cases order with
  | none => rfl
  | some order =>
    simp only [applyOrder, orderOf, OrderPath.apply_eq]
    cases order.links s.catalog entity <;> rfl

/-! ### Items are their plans, written out -/

/-- **An item compiles to its plan, written out.** -/
theorem compileItem_eq (index : Nat) (item : SearchItem) (order : Option OrderPath)
    (supplies : Supplies) :
    s.compileItem index item order supplies =
      (s.plan index item order).map fun p => (p.query supplies, p.after supplies) := by
  unfold compileItem plan
  cases s.entityOf item with
  | error fault => rfl
  | ok entity =>
    simp only [applyCriteria_eq]
    cases s.clauses index entity 0 item.criteriaList with
    | error fault => rfl
    | ok cs =>
      simp only [Except.map, applyOrder_eq]
      cases s.orderOf entity order with
      | error fault => rfl
      | ok o => cases o <;> rfl

/-- **Items compile to their plans, written out** one after another. -/
theorem compileItems_eq (order : Option OrderPath) (index : Nat) (items : List SearchItem)
    (q : Option Select) (supplies : Supplies) :
    s.compileItems order index items q supplies =
      (s.plans order index items).map fun ps => Plan.lastQuery ps supplies q := by
  induction items generalizing index q supplies with
  | nil => rfl
  | cons item items ih =>
    simp only [compileItems, plans, compileItem_eq]
    cases s.plan index item order with
    | error fault => rfl
    | ok p =>
      simp only [Except.map, ih]
      cases s.plans order (index + 1) items <;> rfl

/-! ### Items that are planned alike -/

/-- What is seen of the plans of items is what is seen of the first, and then of the others. -/
theorem map_plans_cons {β : Type} (see : Plan → β) (order : Option OrderPath) (index : Nat)
    (item : SearchItem) (items : List SearchItem) :
    (s.plans order index (item :: items)).map (List.map see) =
      ((s.plan index item order).map see).bind fun b =>
        ((s.plans order (index + 1) items).map (List.map see)).map (b :: ·) := by
  simp only [plans]
  rcases s.plan index item order with fault | p
  · rfl
  · rcases s.plans order (index + 1) items with fault | ps <;> rfl

/-- Where items are planned alike one by one, up to what is seen of their plans, so are the lists
of them. -/
theorem map_plans_congr {β : Type} {see see' : Plan → β} (order : Option OrderPath)
    {items items' : List SearchItem}
    (h : List.Forall₂ (fun i i' => ∀ index,
      (s.plan index i order).map see = (s.plan index i' order).map see') items items')
    (index : Nat) :
    (s.plans order index items).map (List.map see) =
      (s.plans order index items').map (List.map see') := by
  induction h generalizing index with
  | nil => rfl
  | cons hi _ ih => rw [map_plans_cons, map_plans_cons, hi index, ih (index + 1)]

end Searcher

end DottedQuery
