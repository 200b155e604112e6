import DottedQuery.Proofs.Search.Protected

/-!
# The two policies for hidden fields

A searcher that meets a filter on a hidden field either leaves the comparison out or refuses the
request. This file compares the two policies on the same catalog, request and order, and shows
that the choice between them decides nothing else.

A criterion is **withheld** if its path leads, through relations that filters may follow, to an
entity that hides the field at its end (`DottedQuery.Catalog.Withholds`). A path that is cut
before its end is not withheld, whatever the catalog hides behind the cut. Then
(`DottedQuery.Searcher.compile_policies`):

* what refusing lets through is what leaving out compiles without withheld criteria, and the two
  queries are the same, with the same aliases;
* where leaving out compiles and refusing fails, it fails for the first withheld criterion, in
  the order of the items and of the criteria in them, and names the entity and the field that
  its path ends at.

The two runs are followed side by side. As long as no withheld criterion has been met they have
the same outcome (`DottedQuery.Catalog.Departs`); at the first one they part, and the run that
refuses is over. That this passes from a stage of the compilation to the next is
`DottedQuery.Catalog.Departs.bind`.
-/

namespace DottedQuery

namespace SearchRequest

/-- The criteria of a request in their order, each with the item it belongs to. -/
def criteria (request : SearchRequest) : List (SearchItem × Criterion) :=
  request.items.flatMap fun i => i.criteriaList.map (i, ·)

end SearchRequest

/-! ### Withheld criteria -/

namespace Catalog

variable {catalog : Catalog}

section Hop

variable {e related target : Entity} {name : String} {rest : List String} {relation : Relation}

/-- A relation that filters may not follow leads nowhere. -/
theorem not_leads_of_cut (hrel : e.relation? name = some relation)
    (hs : relation.isSearchable = false) : ¬catalog.Leads e (name :: rest) target := by
  intro h
  cases h with
  | there hrel' hs' =>
    obtain rfl := Option.some.inj (hrel.symm.trans hrel')
    simp [hs] at hs'

/-- Behind a relation that leads to an entity, the path leads on from there. -/
theorem leads_of_cons (hrel : e.relation? name = some relation)
    (hent : catalog.entity? relation.related = some related)
    (h : catalog.Leads e (name :: rest) target) : catalog.Leads related rest target := by
  cases h with
  | there hrel' _ hent' hrest =>
    obtain rfl := Option.some.inj (hrel.symm.trans hrel')
    obtain rfl := Option.some.inj (hent.symm.trans hent')
    exact hrest

end Hop

/-- **A criterion is withheld**: from the entity that its item searches, its path leads through
one searchable relation or more to the target, and there its field is hidden. -/
def Withholds (catalog : Catalog) (ic : SearchItem × Criterion) (target : Entity)
    (field : String) : Prop :=
  ∃ e relations, catalog.resolve? (ic.1.key?.getD "") = some e ∧
    ic.2.path? = some ⟨relations, field⟩ ∧ relations ≠ [] ∧ catalog.Leads e relations target ∧
    target.isHidden field = true

/-- None of the criteria is withheld. -/
def WithholdsNone (catalog : Catalog) (ics : List (SearchItem × Criterion)) : Prop :=
  ∀ ic ∈ ics, ∀ target field, ¬catalog.Withholds ic target field

/-- The first of the criteria that is withheld ends at the field of the target. -/
def WithholdsFirst (catalog : Catalog) (ics : List (SearchItem × Criterion)) (target : Entity)
    (field : String) : Prop :=
  ∃ before ic after, ics = before ++ ic :: after ∧ catalog.WithholdsNone before ∧
    catalog.Withholds ic target field

variable {ics ics' : List (SearchItem × Criterion)} {target : Entity} {field : String}

theorem withholdsNone_nil : catalog.WithholdsNone [] :=
  fun _ hic => absurd hic List.not_mem_nil

theorem WithholdsNone.append (h : catalog.WithholdsNone ics) (h' : catalog.WithholdsNone ics') :
    catalog.WithholdsNone (ics ++ ics') :=
  fun ic hic => (List.mem_append.mp hic).elim (h ic) (h' ic)

/-- A first withheld criterion stays the first one, whatever comes after. -/
theorem WithholdsFirst.append (h : catalog.WithholdsFirst ics target field)
    (ics' : List (SearchItem × Criterion)) :
    catalog.WithholdsFirst (ics ++ ics') target field := by
  obtain ⟨before, ic, after, rfl, hbefore, hic⟩ := h
  exact ⟨before, ic, after ++ ics', by simp, hbefore, hic⟩

/-- A first withheld criterion stays the first one behind criteria that are not withheld. -/
theorem WithholdsFirst.behind (h : catalog.WithholdsFirst ics' target field)
    (hnone : catalog.WithholdsNone ics) :
    catalog.WithholdsFirst (ics ++ ics') target field := by
  obtain ⟨before, ic, after, rfl, hbefore, hic⟩ := h
  exact ⟨ics ++ before, ic, after, by simp, hnone.append hbefore, hic⟩

theorem WithholdsFirst.not_withholdsNone (h : catalog.WithholdsFirst ics target field) :
    ¬catalog.WithholdsNone ics := by
  obtain ⟨before, ic, after, rfl, -, hic⟩ := h
  exact fun hnone => hnone ic (by simp) target field hic

/-! ### Two runs side by side -/

/-- **How a run that refuses departs from one that leaves out** over some criteria. -/
inductive Departs (catalog : Catalog) (ics : List (SearchItem × Criterion)) {α : Type}
    (drop deny : Except SearchError α) : Prop
  /-- They have the same outcome, and if they succeed, then no criterion is withheld. -/
  | agree : deny = drop → (∀ x, drop = .ok x → catalog.WithholdsNone ics) →
      Departs catalog ics drop deny
  /-- The run that refuses is over at the first withheld criterion. -/
  | refuse {target : Entity} {field : String} : catalog.WithholdsFirst ics target field →
      deny = .error (.denied target.name field) → Departs catalog ics drop deny

namespace Departs

variable {α β : Type} {drop deny : Except SearchError α}

/-- A stage that reads no criterion does not part the runs. -/
theorem same (x : Except SearchError α) : catalog.Departs [] x x :=
  .agree rfl fun _ _ => withholdsNone_nil

/-- Nor does a stage at which both fail alike. -/
theorem fail (fault : SearchError) :
    catalog.Departs ics (.error fault : Except SearchError α) (.error fault) :=
  .agree rfl fun _ h => by simp at h

/-- **Stages one after another**: the criteria of the first stage come first. -/
theorem bind {next next' : α → Except SearchError β} (h : catalog.Departs ics drop deny)
    (hnext : ∀ x, drop = .ok x → catalog.Departs ics' (next x) (next' x)) :
    catalog.Departs (ics ++ ics') (drop.bind next) (deny.bind next') := by
  cases h with
  | refuse hfirst hdeny => exact .refuse (hfirst.append ics') (by rw [hdeny]; rfl)
  | agree heq hnone =>
    subst heq
    cases deny with
    | error fault => exact fail fault
    | ok x =>
      -- no criterion of the first stage is withheld, so the first one is a matter of the second
      have hbefore : catalog.WithholdsNone ics := hnone x rfl
      cases hnext x rfl with
      | agree heq' hnone' =>
        exact .agree heq' fun y hy => hbefore.append (hnone' y hy)
      | refuse hfirst hdeny => exact .refuse (hfirst.behind hbefore) hdeny

/-- What the outcome is made into does not matter. -/
theorem map (h : catalog.Departs ics drop deny) (f : α → β) :
    catalog.Departs ics (drop.map f) (deny.map f) := by
  have hbind : ∀ x : Except SearchError α, x.map f = x.bind fun a => .ok (f a) := by
    intro x
    cases x <;> rfl
  rw [hbind, hbind, ← List.append_nil ics]
  exact h.bind fun x _ => same (.ok (f x))

/-- Runs that succeed under refusal are those that succeed without withheld criteria. -/
theorem deny_ok_iff (h : catalog.Departs ics drop deny) (x : α) :
    deny = .ok x ↔ drop = .ok x ∧ catalog.WithholdsNone ics := by
  cases h with
  | agree heq hnone =>
    rw [heq]
    exact ⟨fun hx => ⟨hx, hnone x hx⟩, And.left⟩
  | refuse hfirst hdeny =>
    rw [hdeny]
    exact ⟨fun hx => by simp at hx, fun hx => absurd hx.2 hfirst.not_withholdsNone⟩

/-- Where only the run that refuses fails, it fails for the first withheld criterion. -/
theorem denied (h : catalog.Departs ics drop deny) {x : α} {fault : SearchError}
    (hdrop : drop = .ok x) (hfault : deny = .error fault) :
    ∃ target field, catalog.WithholdsFirst ics target field ∧
      fault = .denied target.name field := by
  cases h with
  | agree heq => simp [heq, hdrop] at hfault
  | refuse hfirst hdeny =>
    exact ⟨_, _, hfirst, Except.error.inj (hfault.symm.trans hdeny)⟩

end Departs

end Catalog

/-! ### Routes under the two policies -/

namespace Filter

/-- **The routes of a path under the two policies** are the same, unless the path leads to a
hidden field: then there is none under refusal. -/
theorem route_policies (catalog : Catalog) (field : String) (path : List String) (e : Entity) :
    (route catalog .deny field path e = route catalog .drop field path e ∧
      ∀ r, route catalog .drop field path e = .ok r →
        ∀ target, catalog.Leads e path target → target.isHidden field = false) ∨
    ∃ target, catalog.Leads e path target ∧ target.isHidden field = true ∧
      route catalog .deny field path e = .error (.denied target.name field) := by
  induction path generalizing e with
  | nil =>
    cases hhid : e.isHidden field with
    | true => exact Or.inr ⟨e, .here e, hhid, by simp [route, arrive, hhid, Except.map]⟩
    | false =>
      refine Or.inl ⟨by simp [route, arrive, hhid], fun r _ target hlead => ?_⟩
      cases hlead
      exact hhid
  | cons name rest ih =>
    cases hrel : e.relation? name with
    | none =>
      simp only [route_of_unknown hrel, true_and]
      exact Or.inl fun r hr => by simp at hr
    | some relation =>
      cases hs : relation.isSearchable with
      | false =>
        -- the path is cut here, so it does not lead to anything that could be hidden
        simp only [route_of_cut hrel hs, true_and]
        exact Or.inl fun r _ target hlead => absurd hlead (Catalog.not_leads_of_cut hrel hs)
      | true =>
        cases hent : catalog.entity? relation.related with
        | none =>
          simp only [route_of_dangling hrel hs hent, true_and]
          exact Or.inl fun r hr => by simp at hr
        | some related =>
          cases hrows : relation.existsQuery e.table related.table with
          | error fault =>
            simp only [route_of_fault hrel hs hent hrows, true_and]
            exact Or.inl fun r hr => by simp at hr
          | ok rows =>
            simp only [route_of_step hrel hs hent hrows]
            rcases ih related with ⟨heq, hvisible⟩ | ⟨target, hlead, hhid, hdeny⟩
            · refine Or.inl ⟨by rw [heq], fun r hr target hlead => ?_⟩
              obtain ⟨r', hr', -⟩ := map_eq_ok_iff.mp hr
              exact hvisible r' hr' target (Catalog.leads_of_cons hrel hent hlead)
            · exact Or.inr ⟨target, .there hrel hs hent hlead, hhid, by rw [hdeny]; rfl⟩

end Filter

/-! ### Compilations under the two policies -/

namespace Searcher

variable (s : Searcher)

/-- A criterion departs where it is withheld. -/
theorem clause_departs {i : SearchItem} {c : Criterion} {e : Entity} {path : FieldPath}
    {op : Operator} {value : Value} (hres : s.catalog.resolve? (i.key?.getD "") = some e)
    (hp : parts? c = some (path, op, value)) :
    s.catalog.Departs [(i, c)] ((s.withPolicy .drop).clause e path op value)
      ((s.withPolicy .deny).clause e path op value) := by
  have hpath : c.path? = some path := path_of_parts hp
  -- what is known of a withheld criterion, put in terms of the parts at hand
  have hwithheld : ∀ {target field}, s.catalog.Withholds (i, c) target field →
      path.isRelational = true ∧ field = path.field ∧ s.catalog.Leads e path.relations target ∧
        target.isHidden path.field = true := by
    rintro target field ⟨e', relations, hres', hpath', hne, hlead, hhid⟩
    obtain rfl := Option.some.inj (hres.symm.trans hres')
    obtain rfl := Option.some.inj (hpath.symm.trans hpath')
    exact ⟨by simpa [FieldPath.isRelational] using hne, rfl, hlead, hhid⟩
  simp only [clause]
  cases hrel : path.isRelational with
  | false =>
    refine .agree rfl fun _ _ ic hic target field hw => ?_
    obtain rfl := List.mem_singleton.mp hic
    simp [(hwithheld hw).1] at hrel
  | true =>
    simp only [if_true]
    apply Catalog.Departs.map
    rcases Filter.route_policies s.catalog path.field path.relations e with
      ⟨heq, hvisible⟩ | ⟨target, hlead, hhid, hdeny⟩
    · refine .agree heq fun r hr ic hic target field hw => ?_
      obtain rfl := List.mem_singleton.mp hic
      obtain ⟨-, -, hlead, hhid⟩ := hwithheld hw
      simp [hvisible r hr target hlead] at hhid
    · have hne : path.relations ≠ [] := by simpa [FieldPath.isRelational] using hrel
      exact .refuse ⟨[], (i, c), [], rfl, Catalog.withholdsNone_nil,
        ⟨e, path.relations, hres, hpath, hne, hlead, hhid⟩⟩ hdeny

theorem clauses_departs {i : SearchItem} {e : Entity}
    (hres : s.catalog.resolve? (i.key?.getD "") = some e) (index position : Nat)
    (cs : List Criterion) :
    s.catalog.Departs (cs.map (i, ·)) ((s.withPolicy .drop).clauses index e position cs)
      ((s.withPolicy .deny).clauses index e position cs) := by
  induction cs generalizing position with
  | nil => exact .same (.ok [])
  | cons c cs ih =>
    cases hp : parts? c with
    | none =>
      simp only [clauses, hp]
      exact .fail _
    | some p =>
      obtain ⟨path, op, value⟩ := p
      rw [clauses_cons_eq_bind _ hp, clauses_cons_eq_bind _ hp]
      exact (s.clause_departs hres hp).bind fun cl _ => (ih (position + 1)).map _

/-- An item departs at its criteria: neither its entity nor the order depends on the policy. -/
theorem plan_departs (index : Nat) (i : SearchItem) (order : Option OrderPath) :
    s.catalog.Departs (i.criteriaList.map (i, ·)) ((s.withPolicy .drop).plan index i order)
      ((s.withPolicy .deny).plan index i order) := by
  have hentity : ∀ policy, (s.withPolicy policy).entityOf i = s.entityOf i := fun _ => rfl
  have horder : ∀ policy e, (s.withPolicy policy).orderOf e order = s.orderOf e order := by
    intro policy e
    cases order <;> rfl
  cases he : s.entityOf i with
  | error fault =>
    simp only [plan, hentity, he]
    exact .fail fault
  | ok e =>
    have he' : ∀ policy, (s.withPolicy policy).entityOf i = .ok e := fun _ => he
    have hcriteria := s.clauses_departs (resolve?_of_entityOf he) index 0 i.criteriaList
    rw [plan_eq_bind _ (he' .drop), plan_eq_bind _ (he' .deny),
      ← List.append_nil (i.criteriaList.map (i, ·))]
    refine hcriteria.bind fun cs _ => ?_
    simp only [horder]
    exact .same _

theorem plans_departs (order : Option OrderPath) (index : Nat) (items : List SearchItem) :
    s.catalog.Departs (items.flatMap fun i => i.criteriaList.map (i, ·))
      ((s.withPolicy .drop).plans order index items)
      ((s.withPolicy .deny).plans order index items) := by
  induction items generalizing index with
  | nil => exact .same (.ok [])
  | cons i items ih =>
    rw [plans_cons_eq_bind, plans_cons_eq_bind, List.flatMap_cons]
    exact (s.plan_departs index i order).bind fun p _ => (ih (index + 1)).map _

/-- A request departs at its first withheld criterion. -/
theorem compile_departs (request : SearchRequest) (order : Option OrderPath) :
    s.catalog.Departs request.criteria ((s.withPolicy .drop).compile request order)
      ((s.withPolicy .deny).compile request order) := by
  by_cases hne : request.items = []
  · simp only [compile, hne, List.isEmpty_nil, if_true]
    exact .fail .emptyRequest
  · cases hv : s.rules.validate request with
    | error messages =>
      have hinvalid : ∀ policy, (s.withPolicy policy).compile request order =
          .error (.invalid messages) := by
        intro policy
        have hv' : (s.withPolicy policy).rules.validate request = .error messages := hv
        simp [compile, hne, hv']
      rw [hinvalid, hinvalid]
      exact .fail _
    | ok =>
      have hv' : ∀ policy, (s.withPolicy policy).rules.validate request = .ok () := fun _ => hv
      rw [compile_eq_of_validated order hne (hv' .drop),
        compile_eq_of_validated order hne (hv' .deny), ← List.append_nil request.criteria]
      exact (s.plans_departs order 0 request.items).bind fun ps _ => .same _

/-- **The policies differ in withheld criteria only.** Refusing compiles exactly the requests that
leaving out compiles and that have no withheld criterion, to the same query. Where leaving out
compiles and refusing fails, it is denied access to the field, on the entity that has it, at
which the first withheld criterion ends. -/
theorem compile_policies (request : SearchRequest) (order : Option OrderPath) :
    (∀ q, (s.withPolicy .deny).compile request order = .ok q ↔
      (s.withPolicy .drop).compile request order = .ok q ∧
        s.catalog.WithholdsNone request.criteria) ∧
    ∀ q fault, (s.withPolicy .drop).compile request order = .ok q →
      (s.withPolicy .deny).compile request order = .error fault →
      ∃ target field, s.catalog.WithholdsFirst request.criteria target field ∧
        fault = .denied target.name field :=
  have h := s.compile_departs request order
  ⟨h.deny_ok_iff, fun _ _ hdrop hfault => h.denied hdrop hfault⟩

/-- The theorem at a search for published posts, which both policies compile to the same query,
and at a search for admins that guesses at a hidden field, which is refused for that. -/
theorem compile_policies_blog :
    let posts : SearchRequest := ⟨[Blog.search [Blog.criterion "posts.title" "=" (.string "a")]]⟩
    let admins : SearchRequest := ⟨[Blog.admins]⟩
    (∃ q, (Blog.searcher.withPolicy .deny).compile posts none = .ok q ∧
      (Blog.searcher.withPolicy .drop).compile posts none = .ok q ∧
      Blog.catalog.WithholdsNone posts.criteria) ∧
    (∃ q, (Blog.searcher.withPolicy .drop).compile admins none = .ok q ∧
      (Blog.searcher.withPolicy .deny).compile admins none = .error (.denied "Profile" "ssn") ∧
      ∃ target field, Blog.catalog.WithholdsFirst admins.criteria target field ∧
        SearchError.denied "Profile" "ssn" = .denied target.name field) := by
  refine ⟨⟨_, rfl, ?_⟩, ⟨_, rfl, rfl, ?_⟩⟩
  · exact ((compile_policies Blog.searcher _ none).1 _).mp rfl
  · exact (compile_policies Blog.searcher _ none).2 _ _ rfl rfl

end Searcher

end DottedQuery
