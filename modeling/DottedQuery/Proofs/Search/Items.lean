import DottedQuery.Proofs.Search.Rebase
import DottedQuery.Proofs.Search.Shift

/-!
# Items are independent

All items of a request are compiled and the query of the last one is returned. This file says what
that comes to in terms of the items compiled alone (`DottedQuery.Searcher.compile_items`): a request
compiles exactly if each of its items does; its query is that of the last item, with the aliases
numbered after those that the items before it take; and it fails with the messages of all items put
together, or else with the error of the first item that fails.

The items share two supplies of aliases and nothing else. A validated item has the same plan
wherever it stands in a request (`DottedQuery.Searcher.plan_index`), so only the supplies that its
plan is written with differ, and those only shift the aliases (`DottedQuery.Plan.query_after`).
-/

namespace DottedQuery

open AliasSupply (renumber existsStem joinStem)

namespace Filter

/-! ### Steps of the catalog -/

/-- A step that a relation of the catalog gives. -/
def Step.Known (catalog : Catalog) (st : Step) : Prop :=
  (∃ name, catalog.entity? name = some st.parent) ∧ st.relation ∈ st.parent.relations

/-- The steps of a route are those of the catalog. -/
theorem known_of_route {catalog : Catalog} {policy : HiddenFieldPolicy} {field : String}
    {path : List String} {name : String} {e : Entity} (he : catalog.entity? name = some e)
    {r : List Step × Bool} (hr : route catalog policy field path e = .ok r) :
    ∀ st ∈ r.1, st.Known catalog := by
  induction path generalizing name e r with
  | nil => simp [route_nil hr]
  | cons first rest ih =>
    rcases route_cons_cases hr with ⟨relation, -, -, rfl⟩ | ⟨st, r', rfl, hrel, -, hent, hr', rfl⟩
    · simp
    · intro st' hst'
      rcases List.mem_cons.mp hst' with rfl | hst'
      · exact ⟨⟨name, he⟩, Entity.mem_of_relation? hrel⟩
      · exact ih hent hr' st' hst'

/-- A relabelling that leaves pivot tables alone leaves them in steps of the catalog. -/
theorem Step.Known.keptBy {catalog : Catalog} {st : Step} (h : st.Known catalog)
    (he : catalog.Avoids existsStem) (hj : catalog.Avoids joinStem) (filters joins : Nat) :
    st.KeptBy (renumber filters joins) := by
  obtain ⟨⟨name, hparent⟩, hst⟩ := h
  intro p hp
  exact AliasSupply.renumber_of_ne (he.pivot_ne hparent _ hst p hp)
    (hj.pivot_ne hparent _ hst p hp) filters joins

end Filter

namespace Searcher

variable {s : Searcher}

/-! ### Plans of single items -/

/-- The clauses of complete criteria do not depend on the number of the item. -/
theorem clauses_index {e : Entity} {cs : List Criterion} (h : ∀ c ∈ cs, ∃ p, parts? c = some p)
    (index position : Nat) : s.clauses index e position cs = s.clauses 0 e position cs := by
  induction cs generalizing position with
  | nil => rfl
  | cons c cs ih =>
    obtain ⟨⟨path, op, value⟩, hc⟩ := h c List.mem_cons_self
    simp only [clauses, hc, ih fun c hc => h c (List.mem_cons_of_mem _ hc)]

/-- **A validated item has one plan**, wherever it stands in a request. -/
theorem plan_index {i : SearchItem} (h : s.rules.validate ⟨[i]⟩ = .ok ()) (index : Nat)
    (order : Option OrderPath) : s.plan index i order = s.plan 0 i order := by
  have hparts : ∀ c ∈ i.criteriaList, ∃ p, parts? c = some p :=
    fun c hc => Rules.parts_of_validate h List.mem_cons_self hc
  simp only [plan, clauses_index hparts]

/-- The plans of validated items are those of the single ones, up to the first that fails. -/
theorem plans_cases {items : List SearchItem} (h : ∀ i ∈ items, s.rules.validate ⟨[i]⟩ = .ok ())
    (order : Option OrderPath) (start : Nat) :
    (∃ ps, s.plans order start items = .ok ps ∧
      items.map (fun i => s.plan 0 i order) = ps.map .ok) ∨
    ∃ (k : Nat) (i : SearchItem) (e : SearchError),
      items[k]? = some i ∧ s.plan 0 i order = .error e ∧
      s.plans order start items = .error e ∧
      ∀ j < k, ∀ i', items[j]? = some i' → ∃ p, s.plan 0 i' order = .ok p := by
  induction items generalizing start with
  | nil => exact Or.inl ⟨[], rfl, rfl⟩
  | cons i items ih =>
    have hplan := plan_index (h i List.mem_cons_self) start order
    simp only [plans, hplan]
    cases hp : s.plan 0 i order with
    | error e =>
      exact Or.inr ⟨0, i, e, rfl, hp, rfl, fun j hj => absurd hj (Nat.not_lt_zero j)⟩
    | ok p =>
      -- the first item that fails is one of the others, if there is one
      rcases ih (fun i hi => h i (List.mem_cons_of_mem _ hi)) (start + 1) with
        ⟨ps, hps, hmap⟩ | ⟨k, i', e, hi', hplan', hps, hbefore⟩
      · refine Or.inl ⟨p :: ps, by rw [hps]; rfl, ?_⟩
        rw [List.map_cons, List.map_cons, hp, hmap]
      · refine Or.inr ⟨k + 1, i', e, hi', hplan', by rw [hps]; rfl, fun j hj i'' hj' => ?_⟩
        cases j with
        | zero =>
          obtain rfl := Option.some.inj hj'
          exact ⟨p, hp⟩
        | succ j => exact hbefore j (Nat.lt_of_succ_lt_succ hj) i'' hj'

/-- The tables of a plan are left alone when aliases are renumbered. -/
theorem keptBy_of_plan (he : s.catalog.Avoids existsStem) (hj : s.catalog.Avoids joinStem)
    {index : Nat} {i : SearchItem} {order : Option OrderPath} {p : Plan}
    (h : s.plan index i order = .ok p) (filters joins : Nat) :
    p.KeptBy (renumber filters joins) := by
  obtain ⟨-, hclauses, -⟩ := plan_cases h
  obtain ⟨name, hent⟩ := entity_of_plan h
  have hsteps : ∀ (cs : List Criterion) (position : Nat)
      (cls : List (Combinator × Filter.Clause)),
      s.clauses index p.entity position cs = .ok cls →
        ∀ c ∈ cls, ∀ st ∈ c.2.steps, st.Known s.catalog := by
    intro cs
    induction cs with
    | nil =>
      intro position cls hcls
      rw [clauses] at hcls
      rw [← Except.ok.inj hcls]
      simp
    | cons c cs ih =>
      intro position cls hcls
      obtain ⟨path, op, value, cl, cls', -, hcl, hcls', rfl⟩ := clauses_cons_cases hcls
      intro d hd st hst
      rcases List.mem_cons.mp hd with rfl | hd
      · rcases clause_cases hcl with ⟨r, hr, rfl⟩ | rfl
        · exact Filter.known_of_route hent hr st hst
        · exact absurd hst List.not_mem_nil
      · exact ih _ cls' hcls' d hd st hst
  exact {
    table := AliasSupply.renumber_of_ne (he.table_ne hent) (hj.table_ne hent) filters joins
    steps := fun c hc st hst => (hsteps _ _ _ hclauses c hc st hst).keptBy he hj filters joins }

/-! ### Supplies after several plans -/

/-- The number of relations of an order, none if there is none. -/
def hops (order : Option OrderPath) : Nat := (order.map fun o => o.path.relations.length).getD 0

/-- A plan takes an alias for every relation of the order. -/
theorem joinAliases_of_plan {index : Nat} {i : SearchItem} {order : Option OrderPath} {p : Plan}
    (h : s.plan index i order = .ok p) : p.joinAliases = hops order := by
  obtain ⟨-, -, horder⟩ := plan_cases h
  unfold Plan.joinAliases Plan.links hops
  cases order with
  | none => rw [← Except.ok.inj horder]; rfl
  | some o =>
    obtain ⟨ls, hls, horder⟩ := map_eq_ok_iff.mp horder
    rw [← horder]
    exact OrderPath.length_of_links hls

/-- What several plans leave of the supplies. -/
theorem foldl_after (ps : List Plan) (supplies : Supplies) :
    ps.foldl (fun supplies p => p.after supplies) supplies =
      ⟨supplies.filters.after (ps.map Plan.filterAliases).sum,
        supplies.joins.after (ps.map Plan.joinAliases).sum⟩ := by
  induction ps generalizing supplies with
  | nil => rfl
  | cons p ps ih =>
    rw [List.foldl_cons, ih, Plan.after, AliasSupply.after_after, AliasSupply.after_after]
    rfl

/-! ### Compiling several items -/

/-- Validated items compile as the last of their plans, if all of them can be made. -/
theorem compile_of_plans {items : List SearchItem} (hne : items ≠ [])
    (hv : ∀ i ∈ items, s.rules.validate ⟨[i]⟩ = .ok ()) (order : Option OrderPath) {ps : List Plan}
    {p : Plan} (hps : s.plans order 0 items = .ok (ps ++ [p])) :
    s.compile ⟨items⟩ order = .ok (p.query ⟨AliasSupply.forExists.after
      (ps.map Plan.filterAliases).sum, AliasSupply.forJoins.after
        (ps.map Plan.joinAliases).sum⟩) := by
  rw [compile_eq_of_validated order hne ((s.rules.validate_eq_ok_iff_items items).mpr hv), hps]
  simp only [Except.bind, Plan.lastQuery_append, foldl_after]
  rfl

/-- A request with an item that does not pass the rules fails with the messages of all items. -/
theorem compile_of_invalid {items : List SearchItem} (order : Option OrderPath)
    (h : ∃ i ∈ items, s.rules.validate ⟨[i]⟩ ≠ .ok ()) :
    s.compile ⟨items⟩ order = .error (.invalid (s.rules.messages ⟨items⟩)) := by
  obtain ⟨i, hi, hinvalid⟩ := h
  have hne : items.isEmpty = false := by
    rw [List.isEmpty_eq_false_iff]
    exact List.ne_nil_of_mem hi
  cases hv : s.rules.validate ⟨items⟩ with
  | ok => exact absurd ((s.rules.validate_eq_ok_iff_items items).mp hv i hi) hinvalid
  | error m =>
    simp only [compile, hne, Bool.false_eq_true, if_false, hv, Rules.validate_eq_error hv]

/-- The supplies that the plans of items leave, in terms of their queries. -/
theorem compile_of_plans_relabel (he : s.catalog.Avoids existsStem)
    (hj : s.catalog.Avoids joinStem) {items : List SearchItem} (hne : items ≠ [])
    (hv : ∀ i ∈ items, s.rules.validate ⟨[i]⟩ = .ok ()) (order : Option OrderPath)
    {ps : List Plan} {p : Plan} (hps : s.plans order 0 items = .ok (ps ++ [p]))
    (hplan : ∀ p' ∈ ps ++ [p], ∃ i, s.plan 0 i order = .ok p') :
    s.compile ⟨items⟩ order = .ok ((p.query .initial).relabel (renumber
      ((ps.map fun p => p.query .initial).map Select.existsNodes).sum
        (ps.length * hops order))) := by
  have hfilters : ps.map Plan.filterAliases =
      (ps.map fun p => p.query .initial).map Select.existsNodes := by
    rw [List.map_map]
    exact List.map_congr_left fun p _ => (p.existsNodes_query .initial).symm
  -- all items are ordered alike, so each of them takes the same number of joins
  have hjoins : (ps.map Plan.joinAliases).sum = ps.length * hops order := by
    have hconst : ps.map Plan.joinAliases = ps.map fun _ => hops order := by
      refine List.map_congr_left fun p' hp' => ?_
      obtain ⟨i, hi⟩ := hplan p' (List.mem_append_left _ hp')
      exact joinAliases_of_plan hi
    rw [hconst, List.map_const', List.sum_replicate_nat]
  obtain ⟨i, hi⟩ := hplan p (List.mem_append_right _ List.mem_cons_self)
  rw [compile_of_plans hne hv order hps, hfilters, hjoins,
    ← Plan.query_after (s := .initial) (keptBy_of_plan he hj hi _ _)
      (AliasSupply.renumber_exists _ _) (AliasSupply.renumber_join _ _)]
  rfl

/-- **Validated items**: either all of them compile alone, and the request compiles to the last of
their queries, renumbered; or the request fails as the first of them that does. -/
theorem compile_of_valid (he : s.catalog.Avoids existsStem) (hj : s.catalog.Avoids joinStem)
    (order : Option OrderPath) {items : List SearchItem} (hne : items ≠ [])
    (hv : ∀ i ∈ items, s.rules.validate ⟨[i]⟩ = .ok ()) :
    (∃ (qs : List Select) (last : Select),
      items.map (fun i => s.compile ⟨[i]⟩ order) = (qs ++ [last]).map .ok ∧
        s.compile ⟨items⟩ order = .ok
          (last.relabel (renumber (qs.map Select.existsNodes).sum (qs.length * hops order)))) ∨
    ∃ (k : Nat) (i : SearchItem) (e : SearchError), items[k]? = some i ∧
      s.compile ⟨[i]⟩ order = .error e ∧ s.compile ⟨items⟩ order = .error e ∧
        ∀ j < k, ∀ i', items[j]? = some i' → ∃ q, s.compile ⟨[i']⟩ order = .ok q := by
  have hsingle : ∀ i ∈ items, s.compile ⟨[i]⟩ order =
      (s.plan 0 i order).map fun p => p.query .initial :=
    fun i hi => compile_single_of_validated order (hv i hi)
  rcases plans_cases hv order 0 with ⟨ps, hps, hmap⟩ | ⟨k, i, e, hi, hplan, hps, hbefore⟩
  · left
    have hne' : ps ≠ [] := by
      rintro rfl
      exact hne (by simpa using hmap)
    obtain ⟨ps, p, rfl⟩ : ∃ ps' p, ps = ps' ++ [p] :=
      ⟨ps.dropLast, ps.getLast hne', (List.dropLast_concat_getLast hne').symm⟩
    have hplan : ∀ p' ∈ ps ++ [p], ∃ i, s.plan 0 i order = .ok p' := by
      intro p' hp'
      have hmem : Except.ok p' ∈ items.map fun i => s.plan 0 i order := by
        rw [hmap]
        exact List.mem_map_of_mem hp'
      obtain ⟨i, -, hi⟩ := List.mem_map.mp hmem
      exact ⟨i, hi⟩
    refine ⟨ps.map fun p => p.query .initial, p.query .initial, ?_, ?_⟩
    · calc items.map (fun i => s.compile ⟨[i]⟩ order)
          = (items.map fun i => s.plan 0 i order).map
              (Except.map fun p => p.query .initial) := by
            rw [List.map_map]
            exact List.map_congr_left hsingle
        _ = _ := by
            rw [hmap, List.map_map, List.map_append, List.map_append, List.map_map]
            rfl
    · rw [List.length_map]
      exact compile_of_plans_relabel he hj hne hv order hps hplan
  · right
    have hmem := List.mem_of_getElem? hi
    refine ⟨k, i, e, hi, by rw [hsingle i hmem, hplan]; rfl, ?_, fun j hj i' hi' => ?_⟩
    · rw [compile_eq_of_validated order hne ((s.rules.validate_eq_ok_iff_items items).mpr hv), hps]
      rfl
    · obtain ⟨p, hp⟩ := hbefore j hj i' hi'
      exact ⟨p.query .initial, by rw [hsingle i' (List.mem_of_getElem? hi'), hp]; rfl⟩

/-- **Items are independent**, and only the last one is returned. A request compiles exactly if
each of its items alone does. Its query is then that of the last item alone with the aliases
numbered on: those of sub-queries by the number of sub-queries of the items before, those of joined
tables by the number of relations of the order for each of them. Otherwise it fails with the
messages of all items, if one of them does not pass the rules, and else with the error of the
first item that fails. -/
theorem compile_items (s : Searcher) (he : s.catalog.Avoids existsStem)
    (hj : s.catalog.Avoids joinStem) (order : Option OrderPath) {items : List SearchItem}
    (hne : items ≠ []) :
    ((∃ q, s.compile ⟨items⟩ order = .ok q) ↔
      ∀ i ∈ items, ∃ q, s.compile ⟨[i]⟩ order = .ok q) ∧
    (∀ q, s.compile ⟨items⟩ order = .ok q → ∃ (qs : List Select) (last : Select),
      items.map (fun i => s.compile ⟨[i]⟩ order) = (qs ++ [last]).map .ok ∧
        q = last.relabel (renumber (qs.map Select.existsNodes).sum (qs.length * hops order))) ∧
    ((∃ i ∈ items, s.rules.validate ⟨[i]⟩ ≠ .ok ()) →
      ∃ m, s.compile ⟨items⟩ order = .error (.invalid m) ∧
        Rules.Unites m (items.map fun i => s.rules.messages ⟨[i]⟩)) ∧
    ∀ e, (∀ i ∈ items, s.rules.validate ⟨[i]⟩ = .ok ()) → s.compile ⟨items⟩ order = .error e →
      ∃ (k : Nat) (i : SearchItem), items[k]? = some i ∧ s.compile ⟨[i]⟩ order = .error e ∧
        ∀ j < k, ∀ i', items[j]? = some i' → ∃ q, s.compile ⟨[i']⟩ order = .ok q := by
  rcases Classical.em (∃ i ∈ items, s.rules.validate ⟨[i]⟩ ≠ .ok ()) with hinvalid | hok
  · -- an item does not pass the rules, so neither it nor the request compiles
    obtain ⟨i, hi, hi'⟩ := hinvalid
    have hfail := compile_of_invalid order ⟨i, hi, hi'⟩
    refine ⟨⟨fun ⟨q, h⟩ => ?_, fun h => ?_⟩, fun q h => ?_,
      fun _ => ⟨_, hfail, s.rules.unites_messages items⟩, fun e h => absurd (h i hi) hi'⟩
    · rw [hfail] at h
      simp at h
    · obtain ⟨q, hq⟩ := h i hi
      exact absurd (validate_of_compile hq) hi'
    · rw [hfail] at h
      simp at h
  · -- all items pass, so the request is as good as its plans
    have hv : ∀ i ∈ items, s.rules.validate ⟨[i]⟩ = .ok () :=
      fun i hi => Classical.byContradiction fun h => hok ⟨i, hi, h⟩
    rcases compile_of_valid he hj order hne hv with
      ⟨qs, last, hmap, hq⟩ | ⟨k, i, e, hi, hsingle, hfail, hbefore⟩
    · have hall : ∀ i ∈ items, ∃ q, s.compile ⟨[i]⟩ order = .ok q := by
        intro i hi
        have hmem : s.compile ⟨[i]⟩ order ∈ (qs ++ [last]).map .ok := by
          rw [← hmap]
          exact List.mem_map_of_mem hi
        obtain ⟨q, -, hq⟩ := List.mem_map.mp hmem
        exact ⟨q, hq.symm⟩
      refine ⟨⟨fun _ => hall, fun _ => ⟨_, hq⟩⟩, fun q h => ⟨qs, last, hmap, ?_⟩,
        fun h => absurd h hok, fun e _ h => ?_⟩
      · exact (Except.ok.inj (hq.symm.trans h)).symm
      · rw [hq] at h
        simp at h
    · refine ⟨⟨fun ⟨q, h⟩ => ?_, fun h => ?_⟩, fun q h => ?_, fun h => absurd h hok,
        fun e' _ h => ⟨k, i, hi, ?_, hbefore⟩⟩
      · rw [hfail] at h
        simp at h
      · obtain ⟨q, hq⟩ := h i (List.mem_of_getElem? hi)
        rw [hsingle] at hq
        simp at hq
      · rw [hfail] at h
        simp at h
      · rw [hsingle, ← hfail, h]

/-- The theorem at three searches that are ordered through a relation, the second of which takes
aliases at two levels. -/
theorem compile_items_blog :
    ∃ q, Blog.searcher.compile
        ⟨[Blog.search [], Blog.admins, Blog.search [Blog.criterion "posts.id" "=" (.int 1)]]⟩
        (some (.ofText "manager.name" .asc)) = .ok q ∧
      ∃ (qs : List Select) (last : Select),
        [Blog.search [], Blog.admins, Blog.search [Blog.criterion "posts.id" "=" (.int 1)]].map
            (fun i => Blog.searcher.compile ⟨[i]⟩ (some (.ofText "manager.name" .asc))) =
          (qs ++ [last]).map .ok ∧
        q = last.relabel (renumber (qs.map Select.existsNodes).sum
          (qs.length * hops (some (.ofText "manager.name" .asc)))) :=
  ⟨_, rfl, (compile_items Blog.searcher (Blog.avoids (Or.inl rfl)) (Blog.avoids (Or.inr rfl))
    (some (.ofText "manager.name" .asc)) (by simp)).2.1 _ rfl⟩

end Searcher

end DottedQuery
