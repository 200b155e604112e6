import DottedQuery.Proofs.Query.Canonical
import DottedQuery.Proofs.Search.Defects

/-!
# Criteria that are skipped

A criterion whose path begins with a relation that filters may not follow is *skipped*
(`DottedQuery.Entity.Skips`): nothing is left of it, so it adds no condition and takes no alias.
It keeps its place among the criteria of its item, though, and the first place is special: the
criterion there is combined by *and* whatever its flag says. Without a skipped criterion in front
of it a criterion with the flag may come first, and the query is then another one.

The statement is not. What a plan comes to without empty clauses and with *and* for the first
combinator is its **essence** (`DottedQuery.Plan.essential`), and

* the queries of a plan and of its essence have one canonical form, for a statement does not show
  the combinator of a first condition (`DottedQuery.Plan.canonical_essential_query`);
* items that differ in skipped criteria have plans with one essence
  (`DottedQuery.Searcher.plan_thins`).

So a skipped criterion is as good as absent (`DottedQuery.Searcher.compile_thins`).
-/

namespace DottedQuery

open DottedQuery.Filter (Clause)

/-! ### Leaving criteria out -/

/-- **A criterion on an entity is skipped**: its path begins with a relation of the entity that
filters may not follow. -/
def Entity.Skips (e : Entity) (c : Criterion) : Prop :=
  ∃ path name rest relation, c.path? = some path ∧ path.relations = name :: rest ∧
    e.relation? name = some relation ∧ relation.isSearchable = false

/-- A list without some of the members that satisfy `P`, wherever these stand. -/
inductive Without {α : Type} (P : α → Prop) : List α → List α → Prop where
  /-- Nothing is left out of nothing. -/
  | nil : Without P [] []
  /-- The first member stays. -/
  | keep {a : α} {as bs : List α} (rest : Without P as bs) : Without P (a :: as) (a :: bs)
  /-- The first member is left out. -/
  | drop {a : α} {as bs : List α} (ha : P a) (rest : Without P as bs) : Without P (a :: as) bs

namespace Without

variable {α : Type} {P Q : α → Prop} {as bs : List α}

theorem imp (hPQ : ∀ a, P a → Q a) (h : Without P as bs) : Without Q as bs := by
  induction h with
  | nil => exact .nil
  | keep _ ih => exact .keep ih
  | drop ha _ ih => exact .drop (hPQ _ ha) ih

/-- What holds of all that may be left out holds of all members if it holds of those that stay. -/
theorem forall_iff (hPQ : ∀ a, P a → Q a) (h : Without P as bs) :
    (∀ a ∈ as, Q a) ↔ ∀ b ∈ bs, Q b := by
  induction h with
  | nil => rfl
  | keep _ ih => rw [List.forall_mem_cons, List.forall_mem_cons, ih]
  | drop ha _ ih => rw [List.forall_mem_cons, ih, and_iff_right (hPQ _ ha)]

end Without

/-- **An item is thinned to another**: criteria that have all their parts and are skipped on the
entity that the item searches are left out, as many of them as one likes. -/
structure SearchItem.Thins (catalog : Catalog) (i i' : SearchItem) : Prop where
  /-- Both search under one key. -/
  entity : i'.entity = i.entity
  /-- The criteria of the second are those of the first without some that are skipped. -/
  criteria : Without (fun c => (∀ p, c.Has p) ∧
    ∃ e, catalog.resolve? (i.key?.getD "") = some e ∧ e.Skips c) i.criteriaList i'.criteriaList

/-- **A request is thinned to another**, item by item. -/
def SearchRequest.Thins (catalog : Catalog) (r r' : SearchRequest) : Prop :=
  List.Forall₂ (SearchItem.Thins catalog) r.items r'.items

/-! ### The essence of a plan -/

/-- Nothing is left of the criterion. -/
def Filter.Clause.isEmpty (c : Clause) : Bool := c.steps.isEmpty && c.leaf.isNone

theorem Filter.Clause.eq_of_isEmpty {c : Clause} (h : c.isEmpty = true) : c = ⟨[], none⟩ := by
  obtain ⟨steps, leaf⟩ := c
  simpa [isEmpty] using h

namespace Plan

/-- Clauses without the empty ones. -/
def kept (cs : List (Combinator × Clause)) : List (Combinator × Clause) :=
  cs.filter fun c => !c.2.isEmpty

/-- Clauses with the first of them combined by *and*. -/
def leading : List (Combinator × Clause) → List (Combinator × Clause)
  | [] => []
  | c :: cs => (.and, c.2) :: cs

/-- **The essence of a plan**: no clause is empty, and the first one is combined by *and*. -/
def essential (p : Plan) : Plan := { p with clauses := leading (kept p.clauses) }

theorem kept_cons_of_isEmpty {c : Combinator × Clause} (h : c.2.isEmpty = true)
    (cs : List (Combinator × Clause)) : kept (c :: cs) = kept cs :=
  List.filter_cons_of_neg (by simp [h])

theorem kept_cons_of_not_isEmpty {c : Combinator × Clause} (h : c.2.isEmpty = false)
    (cs : List (Combinator × Clause)) : kept (c :: cs) = c :: kept cs :=
  List.filter_cons_of_pos (by simp [h])

/-- In front of others a clause counts with whatever combinator, if it comes first. -/
theorem leading_kept_append (b b' : Combinator) (cl : Clause) (cs : List (Combinator × Clause)) :
    leading (kept [(b, cl)] ++ cs) = leading (kept [(b', cl)] ++ cs) := by
  rcases hcl : cl.isEmpty with _ | _
  · rw [kept_cons_of_not_isEmpty hcl, kept_cons_of_not_isEmpty hcl]
    rfl
  · rw [kept_cons_of_isEmpty hcl, kept_cons_of_isEmpty hcl]

/-- Empty clauses make no conditions. -/
theorem conditions_kept (table : String) (cs : List (Combinator × Clause)) (supply : AliasSupply) :
    conditions table (kept cs) supply = conditions table cs supply := by
  induction cs generalizing supply with
  | nil => rfl
  | cons c cs ih =>
    rcases hc : c.2.isEmpty with _ | _
    · rw [kept_cons_of_not_isEmpty hc, conditions, conditions, ih]
    · rw [kept_cons_of_isEmpty hc, conditions, Clause.eq_of_isEmpty hc, ih]
      rfl

/-- Empty clauses take no aliases. -/
theorem clauseAliases_kept (cs : List (Combinator × Clause)) :
    clauseAliases (kept cs) = clauseAliases cs := by
  induction cs with
  | nil => rfl
  | cons c cs ih =>
    rcases hc : c.2.isEmpty with _ | _
    · rw [kept_cons_of_not_isEmpty hc, clauseAliases_cons, clauseAliases_cons, ih]
    · rw [kept_cons_of_isEmpty hc, clauseAliases_cons, Clause.eq_of_isEmpty hc, ih]
      exact (Nat.zero_add _).symm

/-- The combinator of the first clause is not seen: either its condition comes first, or it has
none. -/
theorem canonicalConditions_leading (table : String) (cs : List (Combinator × Clause))
    (supply : AliasSupply) :
    canonicalConditions (conditions table (leading cs) supply) =
      canonicalConditions (conditions table cs supply) := by
  rcases cs with _ | ⟨⟨b, cl⟩, cs⟩
  · rfl
  · rw [leading, conditions, conditions]
    rcases cl.predicate? table supply with _ | predicate <;> rfl

theorem clauseAliases_leading (cs : List (Combinator × Clause)) :
    clauseAliases (leading cs) = clauseAliases cs := by
  rcases cs with _ | ⟨c, cs⟩ <;> rfl

/-- **The essence of a plan is written as the plan is.** -/
theorem canonical_essential_query (p : Plan) (supplies : Searcher.Supplies) :
    (p.essential.query supplies).canonical = (p.query supplies).canonical := by
  have hwheres := canonicalConditions_leading p.entity.table (kept p.clauses) supplies.filters
  rw [conditions_kept] at hwheres
  rw [query, query, Select.canonical, Select.canonical]
  exact congrArg (Select.mk _ _ _ · _) hwheres

/-- The essence of a plan leaves the supplies that the plan leaves. -/
theorem after_essential (p : Plan) (supplies : Searcher.Supplies) :
    p.essential.after supplies = p.after supplies := by
  have haliases : clauseAliases (leading (kept p.clauses)) = clauseAliases p.clauses := by
    rw [clauseAliases_leading, clauseAliases_kept]
  exact congrArg (fun n => Searcher.Supplies.mk (supplies.filters.after n) _) haliases

end Plan

/-! ### Thinned items have one essence -/

namespace Searcher

variable {s : Searcher} {e : Entity} {cs cs' : List Criterion}

/-- Nothing is left of a criterion that is skipped. -/
theorem clause_of_skips {c : Criterion} {path : FieldPath} {op : Operator} {value : Value}
    (hc : e.Skips c) (hparts : parts? c = some (path, op, value)) :
    s.clause e path op value = .ok ⟨[], none⟩ := by
  obtain ⟨path', name, rest, relation, hpath, hrelations, hrel, hcut⟩ := hc
  obtain rfl : path' = path := Option.some.inj (hpath.symm.trans (path_of_parts hparts))
  rw [clause, FieldPath.isRelational, hrelations, Filter.route_of_cut hrel hcut]
  rfl

/-- What is kept of clauses is what is kept of the first one and of the others. -/
theorem map_kept_cons (c : Combinator × Clause)
    (cls : Except SearchError (List (Combinator × Clause))) :
    (cls.map (c :: ·)).map Plan.kept = (cls.map Plan.kept).map (Plan.kept [c] ++ ·) := by
  rcases cls with fault | cls
  · rfl
  · exact congrArg Except.ok (List.filter_append [c] cls)

/-- Behind the first position criteria are combined as their flags say, so the positions do not
matter there. -/
theorem clauses_kept (h : Without e.Skips cs cs') (hparts : ∀ c ∈ cs, ∃ p, parts? c = some p)
    (item : Nat) {position position' : Nat} (hpos : position ≠ 0) (hpos' : position' ≠ 0) :
    (s.clauses item e position cs).map Plan.kept =
      (s.clauses item e position' cs').map Plan.kept := by
  induction h generalizing position position' with
  | nil => rfl
  | @keep c cs cs' _ ih =>
    obtain ⟨⟨⟨path, op, value⟩, hc⟩, hcs⟩ := List.forall_mem_cons.mp hparts
    have hcomb : combinator position c = combinator position' c := by
      rw [combinator, combinator, if_neg hpos, if_neg hpos']
    have hrest := ih hcs position.succ_ne_zero position'.succ_ne_zero
    rw [s.clauses_cons_eq_bind hc, s.clauses_cons_eq_bind hc, hcomb]
    rcases s.clause e path op value with fault | cl
    · rfl
    · simp only [Except.bind, map_kept_cons, hrest]
  | @drop c cs cs' hskips _ ih =>
    obtain ⟨⟨⟨path, op, value⟩, hc⟩, hcs⟩ := List.forall_mem_cons.mp hparts
    rw [s.clauses_cons_eq_bind hc, clause_of_skips hskips hc, ← ih hcs position.succ_ne_zero hpos']
    simp only [Except.bind, map_kept_cons]
    rcases s.clauses item e (position + 1) cs with fault | cls <;> rfl

/-- From the first position on, too, once the combinator of the first clause is settled: as long
as criteria are left out at the beginning, the next one is still the first that counts. -/
theorem clauses_essential (h : Without e.Skips cs cs')
    (hparts : ∀ c ∈ cs, ∃ p, parts? c = some p) (item position : Nat) :
    ((s.clauses item e position cs).map Plan.kept).map Plan.leading =
      ((s.clauses item e 0 cs').map Plan.kept).map Plan.leading := by
  induction h generalizing position with
  | nil => rfl
  | @keep c cs cs' hrest _ =>
    obtain ⟨⟨⟨path, op, value⟩, hc⟩, hcs⟩ := List.forall_mem_cons.mp hparts
    have hkept := clauses_kept (s := s) hrest hcs item position.succ_ne_zero (Nat.succ_ne_zero 0)
    rw [s.clauses_cons_eq_bind hc, s.clauses_cons_eq_bind hc]
    rcases s.clause e path op value with fault | cl
    · rfl
    · simp only [Except.bind, map_kept_cons, hkept]
      rcases (s.clauses item e (0 + 1) cs').map Plan.kept with fault | cls
      · rfl
      · exact congrArg Except.ok (Plan.leading_kept_append _ _ cl cls)
  | @drop c cs cs' hskips _ ih =>
    obtain ⟨⟨⟨path, op, value⟩, hc⟩, hcs⟩ := List.forall_mem_cons.mp hparts
    rw [s.clauses_cons_eq_bind hc, clause_of_skips hskips hc, ← ih hcs (position + 1)]
    simp only [Except.bind, map_kept_cons]
    rcases s.clauses item e (position + 1) cs with fault | cls <;> rfl

/-- **An item that is thinned keeps the essence of its plan.** -/
theorem plan_thins {i i' : SearchItem} (h : i.Thins s.catalog i')
    (hparts : ∀ c ∈ i.criteriaList, ∃ p, parts? c = some p) (order : Option OrderPath)
    (index : Nat) :
    (s.plan index i order).map Plan.essential = (s.plan index i' order).map Plan.essential := by
  have hkey : i'.key? = i.key? := by rw [SearchItem.key?, SearchItem.key?, h.entity]
  have hsame : s.entityOf i' = s.entityOf i := by simp only [entityOf, hkey]
  rcases he : s.entityOf i with fault | e
  · simp only [plan, hsame, he]
  · have hskips : Without e.Skips i.criteriaList i'.criteriaList := by
      refine h.criteria.imp ?_
      rintro c ⟨-, e', hres, hc⟩
      obtain rfl := Option.some.inj (hres.symm.trans (resolve?_of_entityOf he))
      exact hc
    have hclauses := clauses_essential (s := s) hskips hparts index 0
    have hplan : ∀ cls : Except SearchError (List (Combinator × Clause)),
        (cls.bind fun cs => (s.orderOf e order).map (Plan.mk e cs)).map Plan.essential =
          ((cls.map Plan.kept).map Plan.leading).bind fun cs =>
            (s.orderOf e order).map (Plan.mk e cs) := by
      rintro (fault | cls)
      · rfl
      · simp only [Except.bind, Except.map]
        rcases s.orderOf e order with fault | o <;> rfl
    rw [s.plan_eq_bind he, s.plan_eq_bind (hsame.trans he), hplan, hplan, hclauses]

/-! ### Thinned requests -/

/-- A request and what it is thinned to pass the rules together, for only criteria that have all
their parts are left out. -/
theorem validate_thins {r r' : SearchRequest} (h : r.Thins s.catalog r') :
    s.rules.validate r = .ok () ↔ s.rules.validate r' = .ok () := by
  have hitems : ∀ items items' : List SearchItem,
      List.Forall₂ (SearchItem.Thins s.catalog) items items' →
      ((∀ i ∈ items, i.Names s.rules.keys ∧ ∀ c ∈ i.criteriaList, ∀ p, c.Has p) ↔
        ∀ i ∈ items', i.Names s.rules.keys ∧ ∀ c ∈ i.criteriaList, ∀ p, c.Has p) := by
    intro items items' h
    induction h with
    | nil => rfl
    | @cons i i' items items' hi _ ih =>
      have hnames : i'.Names s.rules.keys ↔ i.Names s.rules.keys := by
        rw [SearchItem.Names, SearchItem.Names, hi.entity]
      rw [List.forall_mem_cons, List.forall_mem_cons, ih, hnames,
        hi.criteria.forall_iff fun c hc => hc.1]
  rw [Rules.validate_eq_ok_iff_defects, Rules.validate_eq_ok_iff_defects, Rules.no_defect_iff,
    Rules.no_defect_iff]
  exact hitems r.items r'.items h

/-- A validated request has the statement of what it is thinned to, or fails as that does. -/
theorem map_statement_thins {r r' : SearchRequest} (h : r.Thins s.catalog r')
    (hv : s.rules.validate r = .ok ()) (order : Option OrderPath) :
    (s.compile r order).map Select.statement = (s.compile r' order).map Select.statement := by
  have hlength : r.items.length = r'.items.length := h.length_eq
  by_cases hne : r.items = []
  · have hne' : r'.items = [] := by rwa [hne, List.length_nil, eq_comm, List.length_eq_zero_iff]
      at hlength
    simp only [compile, hne, hne', List.isEmpty_nil, if_true]
  · have hne' : r'.items ≠ [] := by
      have hpos := List.length_pos_iff.mpr hne
      exact List.length_pos_iff.mp (by omega)
    have hstatement : ∀ (p : Plan) supplies,
        (p.essential.query supplies).statement = (p.query supplies).statement := by
      intro p supplies
      rw [← Select.statement_canonical, p.canonical_essential_query, Select.statement_canonical]
    have hparts : ∀ i ∈ r.items, ∀ c ∈ i.criteriaList, ∃ p, parts? c = some p :=
      fun i hi c hc => Rules.parts_of_validate hv hi hc
    have hplans : (s.plans order 0 r.items).map (List.map Plan.essential) =
        (s.plans order 0 r'.items).map (List.map Plan.essential) :=
      s.map_plans_congr order (((List.forall₂_and_left _ _).mpr ⟨hparts, h⟩).imp fun i i' hi =>
        plan_thins hi.2 hi.1 order) 0
    rw [map_compile_of_validated hstatement Plan.after_essential order hne hv,
      map_compile_of_validated hstatement Plan.after_essential order hne'
        ((validate_thins h).mp hv), hplans]

/-- **A criterion that is skipped is as good as absent**: a request compiles exactly if it does
without some criteria that are skipped and that the rules do not complain about, wherever they
stand, and both have one statement, with one text and one list of bindings. -/
theorem compile_thins (s : Searcher) {r r' : SearchRequest} (h : r.Thins s.catalog r')
    (order : Option OrderPath) :
    ((∃ q, s.compile r order = .ok q) ↔ ∃ q, s.compile r' order = .ok q) ∧
    ∀ q q', s.compile r order = .ok q → s.compile r' order = .ok q' →
      q.statement.text = q'.statement.text ∧ q.statement.bindings = q'.statement.bindings := by
  have hsame : s.rules.validate r = .ok () → ∀ statement,
      (∃ q, s.compile r order = .ok q ∧ q.statement = statement) ↔
        ∃ q, s.compile r' order = .ok q ∧ q.statement = statement := by
    intro hv statement
    rw [← map_eq_ok_iff, ← map_eq_ok_iff, map_statement_thins h hv order]
  refine ⟨⟨?_, ?_⟩, ?_⟩
  · rintro ⟨q, hq⟩
    obtain ⟨q', hq', -⟩ := (hsame (validate_of_compile hq) q.statement).mp ⟨q, hq, rfl⟩
    exact ⟨q', hq'⟩
  · rintro ⟨q', hq'⟩
    have hv := (validate_thins h).mpr (validate_of_compile hq')
    obtain ⟨q, hq, -⟩ := (hsame hv q'.statement).mpr ⟨q', hq', rfl⟩
    exact ⟨q, hq⟩
  · intro q q' hq hq'
    obtain ⟨q₁, hq₁, hstatement⟩ := (hsame (validate_of_compile hq) q.statement).mp ⟨q, hq, rfl⟩
    obtain rfl := Except.ok.inj (hq₁.symm.trans hq')
    rw [hstatement]
    exact ⟨rfl, rfl⟩

end Searcher

namespace Blog

/-- A search for users that asks for their secrets before and between two alternatives. -/
def nosy : SearchItem :=
  search [criterion "secrets.code" "=" (.int 7),
    { criterion "posts.title" "=" (.string "Hi") with or := true },
    criterion "secrets.owner.name" "in" (.string "a,b"),
    { criterion "manager.roles.name" "in" (.string "admin,root") with or := true }]

/-- The same search without the secrets: what was the second criterion comes first. -/
def discreet : SearchItem :=
  search [{ criterion "posts.title" "=" (.string "Hi") with or := true },
    { criterion "manager.roles.name" "in" (.string "admin,root") with or := true }]

/-- The secrets are skipped. -/
theorem nosy_thins : (SearchRequest.mk [nosy]).Thins catalog ⟨[discreet]⟩ := by
  have hskips : ∀ field word value rest, (FieldPath.ofText field).relations = "secrets" :: rest →
      user.Skips (criterion field word value) := fun field word value rest h =>
    ⟨_, _, rest, _, rfl, h, rfl, rfl⟩
  have hhas : ∀ field word value o, (∀ segment ∈ Text.split '.' field, Text.isPlain segment = true) →
      Operator.parse? word = some o → ∀ p, (criterion field word value).Has p := by
    rintro field word value o hplain hword (_ | _ | _)
    · exact ⟨field, rfl, fun segment hsegment => Text.isPlain_iff.mp (hplain segment hsegment)⟩
    · exact ⟨word, o, rfl, hword⟩
    · exact ⟨value, rfl⟩
  have huser : catalog.resolve? (nosy.key?.getD "") = some user := by rfl
  refine .cons ⟨rfl, .drop ⟨?_, user, huser, ?_⟩ (.keep (.drop ⟨?_, user, huser, ?_⟩ (.keep .nil)))⟩
    .nil
  · exact hhas _ _ _ .eq (by decide) (by decide)
  · exact hskips _ _ _ [] (by decide)
  · exact hhas _ _ _ .isIn (by decide) (by decide)
  · exact hskips _ _ _ ["owner"] (by decide)

end Blog

/-- The theorem at a search that asks for secrets, which compiles. -/
theorem Searcher.compile_thins_blog :
    (SearchRequest.mk [Blog.nosy]).Thins Blog.catalog ⟨[Blog.discreet]⟩ ∧
    ∃ q q', Blog.searcher.compile ⟨[Blog.nosy]⟩ none = .ok q ∧
      Blog.searcher.compile ⟨[Blog.discreet]⟩ none = .ok q' ∧
      q.statement.text = q'.statement.text ∧ q.statement.bindings = q'.statement.bindings := by
  have h := compile_thins Blog.searcher Blog.nosy_thins none
  obtain ⟨q', hq'⟩ : ∃ q, Blog.searcher.compile ⟨[Blog.discreet]⟩ none = .ok q := ⟨_, rfl⟩
  obtain ⟨q, hq⟩ := h.1.mpr ⟨q', hq'⟩
  exact ⟨Blog.nosy_thins, q, q', hq, hq', h.2 q q' hq hq'⟩

end DottedQuery
