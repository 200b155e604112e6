import DottedQuery.Proofs.Search.Validated
import Mathlib.Data.List.Forall2

/-!
# Protected data stays outside

A catalog protects data in two ways: it hides fields, and it keeps filters from following
relations. A criterion may still *mention* protected data – its path may end at a hidden field,
or run into a relation that filters may not follow. This file shows that whatever is said there
does not reach the query.

`DottedQuery.SameButProtected` relates two criteria on an entity that differ at most in what they
say about protected data:

* where the path leads through searchable relations to a field that is hidden at its end, the
  operator and the value are free;
* where the path meets a relation that is not searchable, so is everything behind that relation:
  the rest of the path, its field, the operator and the value.

Two validated requests that are related so, criterion by criterion, compile to the same query or
fail with the same error (`DottedQuery.Searcher.compile_eq_of_sameButProtected`), under either
policy and for every order. The reason is that they have the same plan, and a plan is all that a
compilation is made of: a protected comparison never becomes part of a clause, and no clause
takes more or fewer aliases for it.
-/

namespace DottedQuery

/-! ### Where a path leads -/

namespace Catalog

/-- **A path leads from one entity to another** through relations that filters may follow. -/
inductive Leads (catalog : Catalog) : Entity → List String → Entity → Prop
  /-- The empty path leads nowhere else. -/
  | here (e : Entity) : Leads catalog e [] e
  /-- A searchable relation leads to its related entity, and the path goes on from there. -/
  | there {e related target : Entity} {name : String} {rest : List String} {relation : Relation} :
      e.relation? name = some relation → relation.isSearchable = true →
      catalog.entity? relation.related = some related → Leads catalog related rest target →
      Leads catalog e (name :: rest) target

/-- A path leads to a field that is hidden at its end. -/
def LeadsToHidden (catalog : Catalog) (e : Entity) (path : FieldPath) : Prop :=
  path.isRelational = true ∧
    ∃ target, catalog.Leads e path.relations target ∧ target.isHidden path.field = true

/-- A path leads to a relation that filters may not follow; `before` are the relations before it.
-/
def LeadsToBarrier (catalog : Catalog) (e : Entity) (before : List String) (name : String) :
    Prop :=
  ∃ target relation, catalog.Leads e before target ∧ target.relation? name = some relation ∧
    relation.isSearchable = false

end Catalog

/-! ### Criteria that differ in protected data only -/

/-- **Two criteria on an entity that differ in protected data only.** -/
inductive SameButProtected (catalog : Catalog) (e : Entity) : Criterion → Criterion → Prop
  /-- They do not differ. -/
  | same (c : Criterion) : SameButProtected catalog e c c
  /-- They compare the same hidden field, by whatever operator and with whatever value. -/
  | hidden {c c' : Criterion} {path : FieldPath} : c.path? = some path →
      catalog.LeadsToHidden e path → c'.field = c.field → c'.or = c.or →
      SameButProtected catalog e c c'
  /-- They agree up to the same relation that is not searchable. -/
  | behind {c c' : Criterion} {path path' : FieldPath} {before rest rest' : List String}
      {name : String} : c.path? = some path → c'.path? = some path' →
      path.relations = before ++ name :: rest → path'.relations = before ++ name :: rest' →
      catalog.LeadsToBarrier e before name → c'.or = c.or →
      SameButProtected catalog e c c'

/-- Two items with the same key whose criteria differ in protected data only. Where the key
leads to no entity, nothing is protected and they may not differ at all. -/
def SearchItem.SameButProtected (catalog : Catalog) (i i' : SearchItem) : Prop :=
  i'.entity = i.entity ∧ List.Forall₂ (fun c c' => c = c' ∨
    ∃ e, catalog.resolve? (i.key?.getD "") = some e ∧ DottedQuery.SameButProtected catalog e c c')
    i.criteriaList i'.criteriaList

namespace Filter

variable {catalog : Catalog} {policy : HiddenFieldPolicy}

/-! ### Routes of protected paths -/

/-- The comparison with a hidden field is never part of a route. -/
theorem snd_of_route_hidden {field : String} {path : List String} {e target : Entity}
    (h : catalog.Leads e path target) (hhid : target.isHidden field = true)
    {r : List Step × Bool} (hr : route catalog policy field path e = .ok r) : r.2 = false := by
  induction h generalizing r with
  | here e => rw [route_nil hr, hhid, Bool.not_true]
  | there hrel hs hent _ ih =>
    rcases route_cons_cases hr with
      ⟨relation, hrel', hs', rfl⟩ | ⟨st, r', -, hst, -, hent', hr', rfl⟩
    · rfl
    · obtain rfl := Option.some.inj (hrel.symm.trans hst)
      obtain rfl := Option.some.inj (hent.symm.trans hent')
      have hrest : r'.2 = false := ih hhid hr'
      exact hrest

/-- **A route ends at a barrier**, whatever comes behind it and whatever field is asked for. -/
theorem route_of_barrier (policy : HiddenFieldPolicy) {before : List String} {name : String}
    {e : Entity} (h : catalog.LeadsToBarrier e before name) (field field' : String)
    (rest rest' : List String) :
    route catalog policy field (before ++ name :: rest) e =
      route catalog policy field' (before ++ name :: rest') e ∧
    ∀ r, route catalog policy field (before ++ name :: rest) e = .ok r → r.2 = false := by
  obtain ⟨target, relation, hlead, hrel, hs⟩ := h
  -- before the barrier the two paths are one, so their routes take the same steps or fail alike
  induction hlead with
  | here e =>
    simp only [List.nil_append, route_of_cut hrel hs, true_and]
    exact fun r hr => by rw [← Except.ok.inj hr]
  | @there e related target first more relation' hrel' hs' hent _ ih =>
    obtain ⟨heq, hfalse⟩ := ih hrel
    simp only [List.cons_append]
    cases hrows : relation'.existsQuery e.table related.table with
    | error fault =>
      simp only [route_of_fault hrel' hs' hent hrows, true_and]
      exact fun r hr => by simp at hr
    | ok rows =>
      simp only [route_of_step hrel' hs' hent hrows, heq, true_and]
      intro r hr
      rw [← heq] at hr
      obtain ⟨r', hr', rfl⟩ := map_eq_ok_iff.mp hr
      exact hfalse r' hr'

/-- What is left of a route without a comparison does not depend on the leaf. -/
theorem Clause.ofRoute_congr {r : List Step × Bool} (h : r.2 = false) (leaf leaf' : Leaf) :
    ofRoute leaf r = ofRoute leaf' r := by
  simp [ofRoute, h]

end Filter

namespace Searcher

variable {s : Searcher}

/-! ### The same plan -/

/-- A criterion on a hidden field leaves the same clause for every operator and value. -/
theorem clause_of_hidden {e : Entity} {path : FieldPath} (h : s.catalog.LeadsToHidden e path)
    (op op' : Operator) (value value' : Value) :
    s.clause e path op value = s.clause e path op' value' := by
  obtain ⟨hrel, target, hlead, hhid⟩ := h
  simp only [clause, hrel, if_true]
  cases hr : Filter.route s.catalog s.policy path.field path.relations e with
  | error fault => rfl
  | ok r =>
    exact congrArg Except.ok
      (Filter.Clause.ofRoute_congr (Filter.snd_of_route_hidden hlead hhid hr) _ _)

/-- A criterion that runs into a barrier leaves the same clause whatever stands behind it. -/
theorem clause_of_barrier {e : Entity} {path path' : FieldPath} {before rest rest' : List String}
    {name : String} (hpath : path.relations = before ++ name :: rest)
    (hpath' : path'.relations = before ++ name :: rest')
    (h : s.catalog.LeadsToBarrier e before name) (op op' : Operator) (value value' : Value) :
    s.clause e path op value = s.clause e path' op' value' := by
  have hrel : path.isRelational = true := by simp [FieldPath.isRelational, hpath]
  have hrel' : path'.isRelational = true := by simp [FieldPath.isRelational, hpath']
  simp only [clause, hrel, hrel', if_true, hpath, hpath']
  obtain ⟨heq, hfalse⟩ := Filter.route_of_barrier s.policy h path.field path'.field rest rest'
  rw [← heq]
  cases hr : Filter.route s.catalog s.policy path.field (before ++ name :: rest) e with
  | error fault => rfl
  | ok r => exact congrArg Except.ok (Filter.Clause.ofRoute_congr (hfalse r hr) _ _)

/-- **Criteria that differ in protected data only leave the same clauses.** -/
theorem clauses_congr {e : Entity} (item : Nat) {cs cs' : List Criterion}
    (h : List.Forall₂ (fun c c' => c = c' ∨ SameButProtected s.catalog e c c') cs cs')
    (hc : ∀ c ∈ cs, ∃ p, parts? c = some p) (hc' : ∀ c ∈ cs', ∃ p, parts? c = some p)
    (position : Nat) :
    s.clauses item e position cs = s.clauses item e position cs' := by
  induction h generalizing position with
  | nil => rfl
  | @cons c c' cs cs' hcc _ ih =>
    have ih := ih (fun d hd => hc d (List.mem_cons_of_mem _ hd))
      (fun d hd => hc' d (List.mem_cons_of_mem _ hd))
    obtain ⟨⟨path, op, value⟩, hp⟩ := hc c List.mem_cons_self
    obtain ⟨⟨path', op', value'⟩, hp'⟩ := hc' c' List.mem_cons_self
    have hpath := path_of_parts hp
    have hpath' := path_of_parts hp'
    -- in every case the clause is the same and so is the combinator
    have key : s.clause e path op value = s.clause e path' op' value' ∧
        combinator position c = combinator position c' := by
      replace hcc : SameButProtected s.catalog e c c' := by
        rcases hcc with rfl | hcc
        · exact .same c
        · exact hcc
      cases hcc with
      | same =>
        obtain ⟨rfl, rfl, rfl⟩ : path = path' ∧ op = op' ∧ value = value' := by
          simpa using hp.symm.trans hp'
        exact ⟨rfl, rfl⟩
      | hidden hcp hhid hfield hor =>
        obtain rfl := Option.some.inj (hpath.symm.trans hcp)
        have hfield' : c'.path? = c.path? := by simp only [Criterion.path?, hfield]
        obtain rfl := Option.some.inj ((hpath'.symm.trans hfield').trans hpath)
        exact ⟨clause_of_hidden hhid op op' value value', by simp only [combinator, hor]⟩
      | behind hcp hcp' hrest hrest' hbar hor =>
        obtain rfl := Option.some.inj (hpath.symm.trans hcp)
        obtain rfl := Option.some.inj (hpath'.symm.trans hcp')
        exact ⟨clause_of_barrier hrest hrest' hbar op op' value value',
          by simp only [combinator, hor]⟩
    simp only [clauses, hp, hp', key.1, key.2, ih]

/-- Items that differ in protected data only have the same plan. -/
theorem plan_congr {i i' : SearchItem} (h : i.SameButProtected s.catalog i')
    (hc : ∀ c ∈ i.criteriaList, ∃ p, parts? c = some p)
    (hc' : ∀ c ∈ i'.criteriaList, ∃ p, parts? c = some p) (index : Nat)
    (order : Option OrderPath) : s.plan index i order = s.plan index i' order := by
  obtain ⟨hent, hcs⟩ := h
  have hkey : i'.key? = i.key? := by simp only [SearchItem.key?, hent]
  have hentity : s.entityOf i' = s.entityOf i := by simp only [entityOf, hkey]
  simp only [plan, hentity]
  cases he : s.entityOf i with
  | error fault => rfl
  | ok e =>
    have hres : s.catalog.resolve? (i.key?.getD "") = some e := resolve?_of_entityOf he
    have hcs' : List.Forall₂ (fun c c' => c = c' ∨ SameButProtected s.catalog e c c')
        i.criteriaList i'.criteriaList := by
      refine hcs.imp fun c c' hcc => hcc.imp_right ?_
      rintro ⟨e', hres', hsame⟩
      rwa [← Option.some.inj (hres'.symm.trans hres)]
    simp only [clauses_congr index hcs' hc hc' 0]

theorem plans_congr {items items' : List SearchItem}
    (h : List.Forall₂ (SearchItem.SameButProtected s.catalog) items items')
    (hc : ∀ i ∈ items, ∀ c ∈ i.criteriaList, ∃ p, parts? c = some p)
    (hc' : ∀ i ∈ items', ∀ c ∈ i.criteriaList, ∃ p, parts? c = some p)
    (order : Option OrderPath) (index : Nat) :
    s.plans order index items = s.plans order index items' := by
  induction h generalizing index with
  | nil => rfl
  | cons hi _ ih =>
    have hplan := plan_congr hi (hc _ List.mem_cons_self) (hc' _ List.mem_cons_self) index order
    have ih := ih (fun i hi => hc i (List.mem_cons_of_mem _ hi))
      (fun i hi => hc' i (List.mem_cons_of_mem _ hi)) (index + 1)
    simp only [plans, hplan, ih]

/-! ### Noninterference -/

/-- **Nothing that is said about protected data reaches the query**: two validated requests that
differ in protected data only compile to the same query or fail with the same error, whatever the
policy and whatever the order. -/
theorem compile_eq_of_sameButProtected (s : Searcher) (order : Option OrderPath)
    {request request' : SearchRequest}
    (h : List.Forall₂ (SearchItem.SameButProtected s.catalog) request.items request'.items)
    (hv : s.rules.validate request = .ok ()) (hv' : s.rules.validate request' = .ok ()) :
    s.compile request order = s.compile request' order := by
  cases hitems : request.items with
  | nil =>
    rw [hitems] at h
    have hitems' : request'.items = [] := List.forall₂_nil_left_iff.mp h
    simp only [compile, hitems, hitems', List.isEmpty_nil, if_true]
  | cons i is =>
    have hne : request.items ≠ [] := by simp [hitems]
    have hne' : request'.items ≠ [] := by
      intro hnil
      rw [hnil] at h
      exact hne (List.forall₂_nil_right_iff.mp h)
    have hparts : ∀ i ∈ request.items, ∀ c ∈ i.criteriaList, ∃ p, parts? c = some p :=
      fun i hi c hc => Rules.parts_of_validate hv hi hc
    have hparts' : ∀ i ∈ request'.items, ∀ c ∈ i.criteriaList, ∃ p, parts? c = some p :=
      fun i hi c hc => Rules.parts_of_validate hv' hi hc
    rw [compile_eq_of_validated order hne hv, compile_eq_of_validated order hne' hv',
      plans_congr h hparts hparts' order 0]

/-- The theorem at two searches that guess at a hidden field and look behind a barrier, before a
criterion whose alias is numbered after theirs. -/
theorem compile_eq_of_guesses :
    let guess : SearchItem := Blog.search [Blog.criterion "profile.ssn" "=" (.string "078"),
      Blog.criterion "secrets.code" "=" (.int 1), Blog.criterion "posts.title" "=" (.string "a")]
    let other : SearchItem := Blog.search [Blog.criterion "profile.ssn" "in" (.string "1,2"),
      Blog.criterion "secrets.owner.key" "like" (.string "%"),
      Blog.criterion "posts.title" "=" (.string "a")]
    Blog.searcher.rules.validate ⟨[guess]⟩ = .ok () ∧
      Blog.searcher.rules.validate ⟨[other]⟩ = .ok () ∧
      Blog.searcher.compile ⟨[guess]⟩ (some (.ofText "manager.name" .asc)) =
        Blog.searcher.compile ⟨[other]⟩ (some (.ofText "manager.name" .asc)) := by
  refine ⟨rfl, rfl, compile_eq_of_sameButProtected Blog.searcher _ ?_ rfl rfl⟩
  refine .cons ⟨rfl, .cons ?_ (.cons ?_ (.cons (Or.inl rfl) .nil))⟩ .nil
  · exact Or.inr ⟨Blog.user, rfl,
      .hidden rfl ⟨rfl, Blog.profile, .there rfl rfl rfl (.here _), rfl⟩ rfl rfl⟩
  · exact Or.inr ⟨Blog.user, rfl,
      .behind rfl rfl (List.nil_append _).symm (List.nil_append _).symm
        ⟨Blog.user, _, .here _, rfl, rfl⟩ rfl⟩

end Searcher

end DottedQuery
