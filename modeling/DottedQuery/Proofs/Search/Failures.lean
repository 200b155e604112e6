import DottedQuery.Proofs.Catalog.Closed
import DottedQuery.Proofs.Search.Admission

/-!
# How searches fail

A searcher guards against much that cannot happen when its catalog is closed and the request has
passed the rules: a search key without an entity, a relation that leads nowhere, a pivot table
that is missing, a criterion that lacks a part. This file shows that those guards are never what a
request runs into. What is left is known beforehand
(`DottedQuery.Searcher.compileWith_cases`):

* the order that is asked for, or else the request, has the wrong shape;
* there is nothing to search;
* or the request is **refused** (`DottedQuery.SearchError.Refusal`), because it names a relation
  that is not there or cannot be joined, or touches what it may not see.

The checks come in this order, so an earlier one decides. The argument goes through the stages of
a compilation (`DottedQuery.Refuses.bind`); what is carried along is that the entity at hand is one
of the catalog (`DottedQuery.Catalog.Has`), for closedness speaks of those only.
-/

namespace DottedQuery

/-! ### Refusals -/

/-- **A request is refused** for what it asks of the catalog. -/
inductive SearchError.Refusal : SearchError → Prop
  /-- The entity takes no part in searches. -/
  | notSearchable (key : String) : Refusal (.notSearchable key)
  /-- A field or relation may not be used. -/
  | denied (entity field : String) : Refusal (.denied entity field)
  /-- There is no such relation. -/
  | unknownRelation (entity relation : String) : Refusal (.unknownRelation entity relation)
  /-- The relation cannot be joined. -/
  | unjoinable (relation : String) (kind : RelationKind) : Refusal (.unjoinable relation kind)

/-- Something that fails with refusals only. -/
def Refuses {α : Type} (x : Except SearchError α) : Prop :=
  ∀ fault, x = .error fault → fault.Refusal

namespace Refuses

variable {α β : Type} {x : Except SearchError α}

theorem of_ok (a : α) : Refuses (.ok a) := fun _ h => by simp at h

theorem of_refusal {fault : SearchError} (h : fault.Refusal) :
    Refuses (.error fault : Except SearchError α) :=
  fun _ h' => Except.error.inj h' ▸ h

/-- One stage after another. -/
theorem bind {next : α → Except SearchError β} (h : Refuses x)
    (hnext : ∀ a, x = .ok a → Refuses (next a)) : Refuses (x.bind next) := by
  cases x with
  | error fault => exact of_refusal (h fault rfl)
  | ok a => exact hnext a rfl

theorem map (h : Refuses x) (f : α → β) : Refuses (x.map f) := by
  cases x with
  | error fault => exact of_refusal (h fault rfl)
  | ok a => exact of_ok (f a)

end Refuses

/-! ### Filters and orders -/

variable {catalog : Catalog}

/-- **Routes in a closed catalog fail with refusals only.** -/
theorem Filter.route_refuses (hc : catalog.Closed) (policy : HiddenFieldPolicy) (field : String)
    (path : List String) {e : Entity} (he : catalog.Has e) :
    Refuses (route catalog policy field path e) := by
  induction path generalizing e with
  | nil =>
    refine Refuses.map ?_ _
    unfold arrive
    split
    · cases policy with
      | drop => exact .of_ok false
      | deny => exact .of_refusal (.denied e.name field)
    · exact .of_ok true
  | cons name rest ih =>
    cases hrel : e.relation? name with
    | none =>
      rw [route_of_unknown hrel]
      exact .of_refusal (.unknownRelation e.name name)
    | some relation =>
      cases hs : relation.isSearchable with
      | false =>
        rw [route_of_cut hrel hs]
        exact .of_ok _
      | true =>
        -- the catalog is closed, so the relation leads on and its rows can be asked for
        have hmem : relation ∈ e.relations := Entity.mem_of_relation? hrel
        obtain ⟨related, hent⟩ := hc.leads e he relation hmem
        obtain ⟨rows, hrows⟩ := hc.existsQuery he hmem e.table related.table
        rw [route_of_step hrel hs hent hrows]
        exact (ih ⟨_, hent⟩).map _

/-- Relations lead from entities of the catalog to entities of the catalog. -/
theorem Catalog.Reaches.has {e target : Entity} {names : List String}
    (h : catalog.Reaches e names target) (he : catalog.Has e) : catalog.Has target := by
  induction h with
  | here e => exact he
  | there _ hent _ ih => exact ih ⟨_, hent⟩

/-- **Orders in a closed catalog fail with refusals only.** -/
theorem OrderPath.links_refuses (hc : catalog.Closed) {root : Entity} (hroot : catalog.Has root)
    (order : OrderPath) : Refuses (order.links catalog root) := by
  intro fault h
  rcases links_eq_error_iff.mp h with ⟨i, k, ⟨e, name, hreach, -, hfails⟩, -⟩ | ⟨-, -, rfl⟩
  · cases hfails with
    | listed => exact .denied ..
    | leafListed => exact .denied ..
    | declared => exact .unknownRelation ..
    | leafShown => exact .denied ..
    | joinable => exact .unjoinable ..
    | @defined relation hrel hent =>
      obtain ⟨related, hent'⟩ := hc.leads e (hreach.has hroot) _ (Entity.mem_of_relation? hrel)
      simp [hent] at hent'
  · exact .denied ..

/-- A path and a direction that make no order have the wrong shape. -/
theorem OrderPath.invalid_of_ofTexts {path direction : String} {fault : SearchError}
    (h : ofTexts path direction = .error fault) : ∃ m, fault = .invalid m := by
  unfold ofTexts at h
  extract_lets messages at h
  split at h
  · exact ⟨_, (Except.error.inj h).symm⟩
  · split at h
    · simp at h
    · exact ⟨_, (Except.error.inj h).symm⟩

/-- So do parameters that make none. -/
theorem OrderPath.invalid_of_ofParams {path direction : Option String} {fault : SearchError}
    (h : ofParams path direction = .error fault) : ∃ m, fault = .invalid m := by
  unfold ofParams at h
  split at h
  · next path direction _ _ =>
    cases horder : ofTexts path direction with
    | ok order => simp [horder, Except.map] at h
    | error fault' =>
      rw [horder] at h
      exact Except.error.inj h ▸ invalid_of_ofTexts horder
  · simp at h

/-! ### Items and requests -/

namespace Searcher

variable {s : Searcher}

/-- The catalog of a searcher for a configuration is closed. -/
theorem closed_of_configuration {c : Configuration} {s : Searcher}
    (h : ofConfiguration c = .ok s) : s.catalog.Closed := by
  obtain ⟨catalog, hc, rfl⟩ := map_eq_ok_iff.mp h
  exact Configuration.closed_of_catalog hc

theorem clause_refuses (hc : s.catalog.Closed) {e : Entity} (he : s.catalog.Has e)
    (path : FieldPath) (op : Operator) (value : Value) : Refuses (s.clause e path op value) := by
  unfold clause
  split
  · exact (Filter.route_refuses hc s.policy path.field path.relations he).map _
  · exact .of_ok _

theorem clauses_refuses (hc : s.catalog.Closed) {e : Entity} (he : s.catalog.Has e) (item : Nat)
    {cs : List Criterion} (hparts : ∀ c ∈ cs, ∃ p, parts? c = some p) (position : Nat) :
    Refuses (s.clauses item e position cs) := by
  induction cs generalizing position with
  | nil => exact .of_ok []
  | cons c cs ih =>
    obtain ⟨⟨path, op, value⟩, hp⟩ := hparts c List.mem_cons_self
    rw [clauses_cons_eq_bind s hp]
    refine (clause_refuses hc he path op value).bind fun cl _ => ?_
    exact (ih (fun d hd => hparts d (List.mem_cons_of_mem _ hd)) (position + 1)).map _

theorem orderOf_refuses (hc : s.catalog.Closed) {e : Entity} (he : s.catalog.Has e)
    (order : Option OrderPath) : Refuses (s.orderOf e order) := by
  cases order with
  | none => exact .of_ok none
  | some order => exact (OrderPath.links_refuses hc he order).map _

/-- A search key of a closed catalog has its entity, which may only be closed to searches. -/
theorem entityOf_refuses (hc : s.catalog.Closed) {item : SearchItem}
    (hkey : ∃ k, item.key? = some k ∧ k ∈ s.catalog.keys) : Refuses (s.entityOf item) := by
  obtain ⟨k, hk, hmem⟩ := hkey
  obtain ⟨e, he⟩ := hc.resolves k hmem
  simp only [entityOf, hk, Option.getD_some, he]
  split
  · exact .of_ok e
  · exact .of_refusal (.notSearchable k)

/-- **Plans of validated items fail with refusals only.** -/
theorem plan_refuses (hc : s.catalog.Closed) {item : SearchItem}
    (hkey : ∃ k, item.key? = some k ∧ k ∈ s.catalog.keys)
    (hparts : ∀ c ∈ item.criteriaList, ∃ p, parts? c = some p) (index : Nat)
    (order : Option OrderPath) : Refuses (s.plan index item order) := by
  cases hentity : s.entityOf item with
  | error fault =>
    simp only [plan, hentity]
    exact .of_refusal (entityOf_refuses hc hkey fault hentity)
  | ok e =>
    have he : s.catalog.Has e := by
      obtain ⟨name, -, hname⟩ := Option.bind_eq_some_iff.mp (resolve?_of_entityOf hentity)
      exact ⟨name, hname⟩
    rw [plan_eq_bind s hentity]
    exact (clauses_refuses hc he index hparts 0).bind fun cs _ => (orderOf_refuses hc he order).map _

theorem plans_refuses (hc : s.catalog.Closed) {items : List SearchItem}
    (hkeys : ∀ i ∈ items, ∃ k, i.key? = some k ∧ k ∈ s.catalog.keys)
    (hparts : ∀ i ∈ items, ∀ c ∈ i.criteriaList, ∃ p, parts? c = some p)
    (order : Option OrderPath) (index : Nat) : Refuses (s.plans order index items) := by
  induction items generalizing index with
  | nil => exact .of_ok []
  | cons i items ih =>
    rw [plans_cons_eq_bind]
    refine (plan_refuses hc (hkeys i List.mem_cons_self) (hparts i List.mem_cons_self) index
      order).bind fun p _ => ?_
    exact (ih (fun i hi => hkeys i (List.mem_cons_of_mem _ hi))
      (fun i hi => hparts i (List.mem_cons_of_mem _ hi)) (index + 1)).map _

/-- **What a compilation comes to** in a closed catalog, for a request that is not empty. -/
theorem compile_cases (hc : s.catalog.Closed) {request : SearchRequest} (hne : request.items ≠ [])
    (order : Option OrderPath) :
    (∃ m, s.compile request order = .error (.invalid m)) ∨ (∃ q, s.compile request order = .ok q) ∨
      ∃ fault, fault.Refusal ∧ s.compile request order = .error fault := by
  cases hv : s.rules.validate request with
  | error m => exact Or.inl ⟨m, by simp [compile, hne, hv]⟩
  | ok =>
    refine Or.inr ?_
    have hplans : Refuses (s.plans order 0 request.items) :=
      plans_refuses hc (fun i hi => Rules.key_of_validate hv hi)
        (fun i hi c hcr => Rules.parts_of_validate hv hi hcr) order 0
    rw [compile_eq_of_validated order hne hv]
    cases hps : s.plans order 0 request.items with
    | error fault => exact Or.inr ⟨fault, hplans fault hps, rfl⟩
    | ok ps =>
      -- there is a plan for every item, so there is a last one
      rcases List.eq_nil_or_concat ps with rfl | ⟨ps, p, rfl⟩
      · obtain ⟨i, items, hitems⟩ := List.exists_cons_of_ne_nil hne
        rw [hitems, plans_cons_eq_bind] at hps
        cases hp : s.plan 0 i order <;>
          cases hps' : s.plans order (0 + 1) items <;>
            simp [hp, hps', Except.bind, Except.map] at hps
      · refine Or.inl ⟨p.query (ps.foldl (fun supplies p => p.after supplies) .initial), ?_⟩
        simp only [Except.bind, List.concat_eq_append, Plan.lastQuery_append]

/-- **What a search comes to** in a closed catalog. The order is read first, an empty request is
told apart next, and only then is the request checked and compiled. -/
theorem compileWith_cases (hc : s.catalog.Closed) (request : SearchRequest)
    (orderBy orderAs : Option String) :
    (∃ m, OrderPath.ofParams orderBy orderAs = .error (.invalid m) ∧
      s.compileWith request orderBy orderAs = .error (.invalid m)) ∨
    (∃ order, OrderPath.ofParams orderBy orderAs = .ok order) ∧
      ((request.items = [] ∧ s.compileWith request orderBy orderAs = .error .emptyRequest) ∨
      request.items ≠ [] ∧ ((∃ m, s.compileWith request orderBy orderAs = .error (.invalid m)) ∨
        (∃ q, s.compileWith request orderBy orderAs = .ok q) ∨
        ∃ fault, fault.Refusal ∧ s.compileWith request orderBy orderAs = .error fault)) := by
  cases horder : OrderPath.ofParams orderBy orderAs with
  | error fault =>
    obtain ⟨m, rfl⟩ := OrderPath.invalid_of_ofParams horder
    exact Or.inl ⟨m, rfl, by simp only [compileWith, horder]⟩
  | ok order =>
    have hcompile : s.compileWith request orderBy orderAs = s.compile request order := by
      simp only [compileWith, horder]
    rw [hcompile]
    refine Or.inr ⟨⟨order, rfl⟩, ?_⟩
    by_cases hne : request.items = []
    · exact Or.inl ⟨hne, by simp [compile, hne]⟩
    · exact Or.inr ⟨hne, compile_cases hc hne order⟩

end Searcher

end DottedQuery
