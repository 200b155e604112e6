import DottedQuery.Proofs.Search.Validated
import Mathlib.Data.List.Forall2

/-!
# Changing the values of a request

A request is looked at for its values in one place only, and late: when a clause becomes a
predicate. Until then a value is handed on as it is, next to its operator. So a change of values
that looks at the operator and the value alone can be made in the request or in its plans, with one
result (`DottedQuery.Searcher.plans_mapValues`), and what does not tell the queries of changed plans
from those of the plans as they were does not tell the two requests apart
(`DottedQuery.Searcher.map_compile_mapValues`).

The word for an operator may stand for none; such a criterion is refused, and a change may do with
its value whatever it likes.
-/

namespace DottedQuery

open DottedQuery.Filter (Clause Leaf Step)

variable (f : Option Operator → Value → Value)

/-! ### Requests and plans with other values -/

/-- A criterion with its value changed. -/
def Criterion.mapValue (c : Criterion) : Criterion :=
  { c with value := c.value.map (f c.operator?) }

/-- An item with its values changed. -/
def SearchItem.mapValues (i : SearchItem) : SearchItem :=
  { i with criteria := some (i.criteriaList.map (Criterion.mapValue f)) }

/-- A request with its values changed. -/
def SearchRequest.mapValues (r : SearchRequest) : SearchRequest :=
  ⟨r.items.map (SearchItem.mapValues f)⟩

/-- A leaf with its value changed. -/
def Filter.Leaf.mapValue (l : Leaf) : Leaf := { l with value := f (some l.op) l.value }

/-- A clause with its value changed. -/
def Filter.Clause.mapValue (c : Clause) : Clause := { c with leaf := c.leaf.map (Leaf.mapValue f) }

/-- A plan with its values changed. -/
def Plan.mapValues (p : Plan) : Plan :=
  { p with clauses := p.clauses.map fun c => (c.1, c.2.mapValue f) }

/-- Lists whose elements are related agree in what related elements agree in. -/
theorem map_eq_of_forall₂ {α β : Type} {R : α → α → Prop} {g : α → β}
    (hg : ∀ a a', R a a' → g a = g a') {as as' : List α} (h : List.Forall₂ R as as') :
    as.map g = as'.map g := by
  induction h with
  | nil => rfl
  | cons ha _ ih => simp only [List.map_cons, hg _ _ ha, ih]

/-- Requests under the same keys are one after a change of values if their criteria are. -/
theorem SearchRequest.mapValues_eq {R : Criterion → Criterion → Prop}
    (hR : ∀ c c', R c c' → c.mapValue f = c'.mapValue f) {r r' : SearchRequest}
    (h : List.Forall₂ (fun i i' : SearchItem => i'.entity = i.entity ∧
      List.Forall₂ R i.criteriaList i'.criteriaList) r.items r'.items) :
    r.mapValues f = r'.mapValues f := by
  refine congrArg SearchRequest.mk (map_eq_of_forall₂ ?_ h)
  rintro i i' ⟨hentity, hcs⟩
  simp only [SearchItem.mapValues, hentity, map_eq_of_forall₂ hR hcs]

theorem Filter.Clause.ofRoute_mapValue (leaf : Leaf) (r : List Step × Bool) :
    ofRoute (leaf.mapValue f) r = (ofRoute leaf r).mapValue f := by
  obtain ⟨steps, b⟩ := r
  rcases b with _ | _ <;> rfl

/-- A plan takes as many aliases with other values. -/
theorem Plan.after_mapValues (p : Plan) (supplies : Searcher.Supplies) :
    (p.mapValues f).after supplies = p.after supplies := by
  have halias : (p.mapValues f).filterAliases = p.filterAliases := by
    simp only [filterAliases, clauseAliases, mapValues, List.map_map]
    rfl
  simp only [after, halias]
  rfl

namespace Searcher

variable (s : Searcher)

/-! ### Changing values before or after planning -/

theorem parts?_mapValue (c : Criterion) :
    parts? (c.mapValue f) = (parts? c).map fun p => (p.1, p.2.1, f (some p.2.1) p.2.2) := by
  have hop : (c.mapValue f).operator? = c.operator? := rfl
  have hpath : (c.mapValue f).path? = c.path? := rfl
  have hvalue : (c.mapValue f).value = c.value.map (f c.operator?) := rfl
  simp only [parts?, hop, hpath, hvalue]
  rcases c.operator? with _ | op <;> rcases c.value with _ | v <;> rcases c.path? with _ | path <;>
    rfl

/-- The clause of a criterion with another value is the clause with that value. -/
theorem clause_mapValue (e : Entity) (path : FieldPath) (op : Operator) (v : Value) :
    s.clause e path op (f (some op) v) = (s.clause e path op v).map (Clause.mapValue f) := by
  unfold clause
  split
  · rcases Filter.route s.catalog s.policy path.field path.relations e with fault | r
    · rfl
    · exact congrArg Except.ok (Filter.Clause.ofRoute_mapValue f ⟨path.field, op, v⟩ r)
  · rfl

theorem clauses_mapValue (item : Nat) (e : Entity) (position : Nat) (cs : List Criterion) :
    s.clauses item e position (cs.map (Criterion.mapValue f)) =
      (s.clauses item e position cs).map (List.map fun c => (c.1, c.2.mapValue f)) := by
  induction cs generalizing position with
  | nil => rfl
  | cons c cs ih =>
    simp only [List.map_cons, clauses, parts?_mapValue]
    rcases parts? c with _ | ⟨path, op, v⟩
    · rfl
    · simp only [Option.map_some, clause_mapValue]
      rcases s.clause e path op v with fault | cl
      · rfl
      · simp only [Except.map, ih]
        rcases s.clauses item e (position + 1) cs with fault | cls <;> rfl

theorem plan_mapValues (index : Nat) (item : SearchItem) (order : Option OrderPath) :
    s.plan index (item.mapValues f) order = (s.plan index item order).map (Plan.mapValues f) := by
  have hcs : (item.mapValues f).criteriaList = item.criteriaList.map (Criterion.mapValue f) := rfl
  have hentity : s.entityOf (item.mapValues f) = s.entityOf item := rfl
  simp only [plan, hcs, hentity]
  rcases s.entityOf item with fault | e
  · rfl
  · simp only [clauses_mapValue]
    rcases s.clauses index e 0 item.criteriaList with fault | cls
    · rfl
    · simp only [Except.map]
      rcases s.orderOf e order with fault | o <;> rfl

/-- **The plans of items with other values are the plans with those values.** -/
theorem plans_mapValues (order : Option OrderPath) (index : Nat) (items : List SearchItem) :
    s.plans order index (items.map (SearchItem.mapValues f)) =
      (s.plans order index items).map (List.map (Plan.mapValues f)) := by
  induction items generalizing index with
  | nil => rfl
  | cons item items ih =>
    simp only [List.map_cons, plans, plan_mapValues]
    rcases s.plan index item order with fault | p
    · rfl
    · simp only [Except.map, ih]
      rcases s.plans order (index + 1) items with fault | ps <;> rfl

/-! ### Compiling with other values -/

/-- Values are not complained about as long as they are there. -/
theorem validate_mapValues (r : Rules) (request : SearchRequest) :
    r.validate (request.mapValues f) = r.validate request := by
  have hcriterion : ∀ item (c : Criterion) j,
      Rules.criterionComplaints item (c.mapValue f) j = Rules.criterionComplaints item c j := by
    intro item c j
    have hvalue : Rules.valueComplaint? item (c.mapValue f).value =
        Rules.valueComplaint? item c.value := by
      simp only [Criterion.mapValue]
      rcases c.value with _ | v <;> rfl
    simp only [Rules.criterionComplaints, hvalue]
    rfl
  have hitem : ∀ (i : SearchItem) k, r.itemComplaints (i.mapValues f) k = r.itemComplaints i k := by
    intro i k
    have hcs : (i.mapValues f).criteriaList = i.criteriaList.map (Criterion.mapValue f) := rfl
    simp only [Rules.itemComplaints, hcs, List.zipIdx_map, List.flatMap_map, Prod.map_fst,
      Prod.map_snd, id_eq, hcriterion]
    rfl
  have hall : r.complaints (request.mapValues f) = r.complaints request := by
    simp only [Rules.complaints, SearchRequest.mapValues, List.zipIdx_map, List.flatMap_map,
      Prod.map_fst, Prod.map_snd, id_eq, hitem]
  simp only [Rules.validate, hall]

/-- **What does not see a change of values in the queries of plans does not see it in requests**:
both compile to queries that are seen alike, or both fail with one error. -/
theorem map_compile_mapValues {β : Type} {see : Select → β}
    (hsee : ∀ (p : Plan) supplies, see ((p.mapValues f).query supplies) = see (p.query supplies))
    (request : SearchRequest) (order : Option OrderPath) :
    (s.compile (request.mapValues f) order).map see = (s.compile request order).map see := by
  have hnil : (request.mapValues f).items = [] ↔ request.items = [] := by
    simp [SearchRequest.mapValues]
  by_cases hempty : request.items = []
  · simp only [compile, hempty, hnil.mpr hempty, List.isEmpty_nil, if_true]
  · have hvalid := validate_mapValues f s.rules request
    rcases hv : s.rules.validate request with m | _
    · have hne : request.items.isEmpty = false := by simpa using hempty
      have hne' : (request.mapValues f).items.isEmpty = false := by
        simpa using mt hnil.mp hempty
      rw [hv] at hvalid
      simp only [compile, hne, hne', hv, hvalid, Bool.false_eq_true, if_false]
    · rw [compile_eq_of_validated order (mt hnil.mp hempty) (hvalid.trans hv),
        map_compile_of_validated hsee (Plan.after_mapValues f) order hempty hv, ← plans_mapValues]
      simp only [SearchRequest.mapValues]
      rcases s.plans order 0 (request.items.map (SearchItem.mapValues f)) with fault | ps
      · rfl
      · simp only [Except.bind]
        rcases Plan.lastQuery ps .initial none with _ | q <;> rfl

end Searcher

end DottedQuery
