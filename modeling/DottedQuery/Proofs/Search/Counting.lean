import DottedQuery.Proofs.Search.Scalars

/-!
# The comparisons that are counted

`DottedQuery.Select.valuePredicateCount` says how many predicates of a query hold values. It looks
at the conditions of the query and, through its predicates of existence, at those of its
sub-queries, but at no depth does it look at the conditions of joined tables. The predicates that
it passes over are named here (`DottedQuery.Select.joinValueNodes`), and with them the count comes
out: no predicate is counted twice, and none but those is left out
(`DottedQuery.Select.leavesOut`).

In a query that a search compiles to, the joined tables that hold values are those of the order. So
the count is that of the comparisons the criteria make, and what the order compares with is bound
without being counted (`DottedQuery.Select.valuePredicateCount_exact`); the count of a query that
binds a value may be zero (`DottedQuery.Hospital.binds_uncounted`).
-/

namespace DottedQuery

open DottedQuery.Filter (Clause Leaf Step)

/-! ### What the count passes over -/

mutual

/-- **The predicates with values that the count passes over**: those of joined tables, in a query
and, at any depth, in the sub-queries of its conditions. -/
def Select.joinValueNodes : Select → List Predicate
  | ⟨_, _, joins, wheres, _⟩ => valueNodesOfJoins joins ++ joinValueNodesOfConditions wheres

/-- Those in the sub-queries of conditions. -/
def joinValueNodesOfConditions : List Condition → List Predicate
  | [] => []
  | c :: cs => c.joinValueNodes ++ joinValueNodesOfConditions cs

/-- Those in the sub-query of a condition. -/
def Condition.joinValueNodes : Condition → List Predicate
  | ⟨_, p⟩ => p.joinValueNodes

/-- Those in the sub-query of a predicate. -/
def Predicate.joinValueNodes : Predicate → List Predicate
  | .compare .. | .inSet .. | .columns .. => []
  | .exists sub => sub.joinValueNodes

end

/-- **A count of predicates leaves some out**: these are among all of them, in the same order, and
the others are as many as the count says. -/
structure LeavesOut (left all : List Predicate) (count : Nat) : Prop where
  /-- What is left out is there. -/
  sublist : left.Sublist all
  /-- What is left out and what is counted is all there is. -/
  total : count + left.length = all.length

namespace LeavesOut

variable {left left' all all' : List Predicate} {count count' : Nat}

/-- Nothing is counted where everything is left out. -/
theorem everything (all : List Predicate) : LeavesOut all all 0 :=
  ⟨.refl all, Nat.zero_add _⟩

theorem append (h : LeavesOut left all count) (h' : LeavesOut left' all' count') :
    LeavesOut (left ++ left') (all ++ all') (count + count') where
  sublist := h.sublist.append h'.sublist
  total := by
    rw [List.length_append, List.length_append, ← h.total, ← h'.total]
    omega

/-- If nothing is counted, everything is left out. -/
theorem eq_of_zero (h : LeavesOut left all 0) : left = all :=
  h.sublist.eq_of_length (by rw [← h.total, Nat.zero_add])

end LeavesOut

mutual

/-- **The count leaves out the predicates of joined tables, and no others.** -/
theorem Select.leavesOut : ∀ q : Select,
    LeavesOut q.joinValueNodes q.valueNodes q.valuePredicateCount
  | ⟨_, _, joins, wheres, _⟩ => by
    -- joined tables are not looked at, whatever stands in their conditions
    have h := (LeavesOut.everything (valueNodesOfJoins joins)).append (leavesOut_conditions wheres)
    rwa [Nat.zero_add] at h

theorem leavesOut_conditions : ∀ cs : List Condition,
    LeavesOut (joinValueNodesOfConditions cs) (valueNodesOfConditions cs)
      (Select.valuePredicates cs)
  | [] => .everything []
  | ⟨_, p⟩ :: cs => p.leavesOut.append (leavesOut_conditions cs)

theorem Predicate.leavesOut : ∀ p : Predicate,
    LeavesOut p.joinValueNodes p.valueNodes (Select.predicateValuePredicates p)
  | .compare .. | .inSet .. => ⟨List.nil_sublist _, rfl⟩
  | .columns .. => .everything []
  | .exists sub => sub.leavesOut

end

/-! ### Sub-queries of filters -/

/-- Nothing is passed over in conditions if nothing is in any of their predicates. -/
theorem joinValueNodesOfConditions_eq_nil_iff {cs : List Condition} :
    joinValueNodesOfConditions cs = [] ↔ ∀ c ∈ cs, c.predicate.joinValueNodes = [] := by
  induction cs with
  | nil => simp [joinValueNodesOfConditions]
  | cons c cs ih =>
    obtain ⟨b, p⟩ := c
    rw [joinValueNodesOfConditions, List.append_eq_nil_iff, ih, List.forall_mem_cons]
    rfl

/-- A comparison has no sub-query. -/
theorem Predicate.joinValueNodes_forOperator (column : Column) (op : Operator) (value : Value) :
    (Predicate.forOperator column op value).joinValueNodes = [] := by
  rw [forOperator]
  split <;> rfl

/-- The conditions of a level have none either. -/
theorem Filter.Step.joinValueNodes_demands {st : Step} {qualifier label : String} {c : Condition}
    (hc : c ∈ st.demands qualifier label) : c.predicate.joinValueNodes = [] := by
  rcases List.mem_cons.mp hc with rfl | hc
  · unfold Condition.and Relation.keyCondition
    rcases st.relation.kind <;> rfl
  · obtain ⟨constraint, -, rfl⟩ := List.mem_map.mp hc
    exact Predicate.joinValueNodes_forOperator _ _ _

/-- **No joined table of a filter holds a value**: pivot tables are joined on their keys. -/
theorem Filter.Clause.joinValueNodes_nested {leaf : Option Leaf} {steps : List Step}
    {qualifier : String} {supply : AliasSupply} {p : Predicate}
    (h : nested leaf steps qualifier supply = some p) : p.joinValueNodes = [] := by
  induction steps generalizing qualifier supply p with
  | nil =>
    obtain ⟨leaf, -, rfl⟩ := Option.map_eq_some_iff.mp h
    exact Predicate.joinValueNodes_forOperator _ _ _
  | cons st steps ih =>
    rw [nested] at h
    obtain rfl := Option.some.inj h
    rw [Predicate.joinValueNodes, level_addPredicate?, Select.joinValueNodes,
      st.valueNodesOfJoins_pivotJoins, List.nil_append, joinValueNodesOfConditions_eq_nil_iff]
    intro c hc
    rcases List.mem_append.mp hc with hc | hc
    · exact Step.joinValueNodes_demands hc
    · obtain ⟨inner, hinner, rfl⟩ := Option.map_eq_some_iff.mp (Option.mem_toList.mp hc)
      exact ih hinner

namespace Plan

/-- So nothing is passed over in the conditions of clauses. -/
theorem joinValueNodes_conditions {table : String} {cs : List (Combinator × Clause)}
    {supply : AliasSupply} {c : Condition} (hc : c ∈ conditions table cs supply) :
    c.predicate.joinValueNodes = [] := by
  induction cs generalizing supply with
  | nil => simp [conditions] at hc
  | cons clause cs ih =>
    rcases List.mem_append.mp hc with hc | hc
    · obtain ⟨p, hp, rfl⟩ := Option.map_eq_some_iff.mp (Option.mem_toList.mp hc)
      exact Clause.joinValueNodes_nested hp
    · exact ih hc

/-- **What is passed over in the query of a plan is what its order compares with**, and what is
counted is what its clauses compare with. -/
theorem counted_query (p : Plan) (supplies : Searcher.Supplies) :
    (p.query supplies).joinValueNodes.length =
        (p.links.flatMap fun l => l.1.comparisons).length ∧
      (p.query supplies).valuePredicateCount =
        (p.clauses.flatMap fun c => c.2.comparisons).length := by
  have hjoins := congrArg List.length
    (OrderPath.bound_chainJoins p.links p.entity.table supplies.joins)
  have hnodes := congrArg List.length (p.bound_query supplies)
  have htotal := (p.query supplies).leavesOut.total
  have hpassed : (p.query supplies).joinValueNodes =
      valueNodesOfJoins (OrderPath.chainJoins p.links p.entity.table supplies.joins) := by
    rw [query, Select.joinValueNodes,
      joinValueNodesOfConditions_eq_nil_iff.mpr fun _ => joinValueNodes_conditions,
      List.append_nil]
  rw [List.length_map, List.length_map] at hjoins hnodes
  rw [comparisons, List.length_append] at hnodes
  -- what is counted is what is left of all comparisons without those of the order
  rw [hpassed] at htotal ⊢
  exact ⟨hjoins, by omega⟩

end Plan

/-! ### The count -/

/-- **What the count counts.** Of the predicates of a query that hold values it leaves out those of
joined tables: it is their whole number exactly if no joined table holds a value, and if it is zero,
then all bindings come from joined tables. The count of a query that a search compiles to is the
number of comparisons that the criteria of the last item make, relations' constraints among them;
the comparisons of the order are left out, and are all that is bound if the count is zero. So it is
the whole number exactly if the order compares with nothing. -/
theorem Select.valuePredicateCount_exact (q : Select) :
    q.valuePredicateCount + q.joinValueNodes.length = q.valueNodes.length ∧
    (q.valuePredicateCount = q.valueNodes.length ↔ q.joinValueNodes = []) ∧
    (q.valuePredicateCount = 0 →
      q.statement.bindings = q.joinValueNodes.flatMap Predicate.ownValues) ∧
    ∀ (s : Searcher) (request : SearchRequest) (order : Option OrderPath),
      s.compile request order = .ok q →
      ∃ (item : SearchItem) (root : Entity) (ordering : List Comparison),
        request.items.getLast? = some item ∧
        s.catalog.resolve? (item.key?.getD "") = some root ∧
        (ordering = order.elim [] fun o => s.catalog.orderComparisons o.path.relations root) ∧
        q.valuePredicateCount =
          (item.criteriaList.flatMap (s.catalog.criterionComparisons root)).length ∧
        q.joinValueNodes.length = ordering.length ∧
        (q.valuePredicateCount = q.valueNodes.length ↔ ordering = []) ∧
        (q.valuePredicateCount = 0 →
          q.statement.bindings = ordering.flatMap Comparison.operands) := by
  have htotal := q.leavesOut.total
  refine ⟨htotal, ?_, fun hzero => ?_, fun s request order h => ?_⟩
  · rw [← List.length_eq_zero_iff]
    omega
  · have hall : q.joinValueNodes = q.valueNodes := (hzero ▸ q.leavesOut).eq_of_zero
    rw [hall]
    exact q.carry.holds
  · obtain ⟨index, item, p, filters, joins, hlast, hplan, rfl⟩ := Searcher.written_of_compile h
    obtain ⟨hentity, hclauses, -⟩ := Searcher.plan_cases hplan
    obtain ⟨hpassed, hcount⟩ := p.counted_query ⟨.after .forExists filters, .after .forJoins joins⟩
    rw [Searcher.comparisons_of_links hplan] at hpassed
    rw [Searcher.comparisons_of_clauses hclauses] at hcount
    refine ⟨item, p.entity, _, hlast, Searcher.resolve?_of_entityOf hentity, rfl, hcount, hpassed,
      ?_, fun hzero => ?_⟩
    · rw [← List.length_eq_zero_iff]
      omega
    · rw [hcount, List.length_eq_zero_iff] at hzero
      rw [p.bindings_query, Searcher.comparisons_of_plan hplan, Catalog.comparisons, hzero,
        List.append_nil]

/-! ### An order that compares -/

namespace Hospital

/-- Nurses, in a ward that is open. -/
def nurse : Entity :=
  ((Entity.ofTable "Nurse" "nurses").makeSearchable.allow "ward").addRelation
    ((Relation.belongsTo "ward" "Ward" "ward_id" "id").withConstraint "open" .eq (.bool true))

/-- The configuration. -/
def configuration : Configuration :=
  ⟨Dict.ofList [("nurse", "Nurse")], [nurse, .ofTable "Ward" "wards"], .drop⟩

/-- The searcher for that configuration. -/
def searcher : Searcher := ⟨configuration.uncheckedCatalog, configuration.policy⟩

/-- Nurses by name. -/
def search : SearchRequest := ⟨[⟨some "nurse", some [Blog.criterion "name" "=" (.string "Ann")]⟩]⟩

/-- All nurses. -/
def everyone : SearchRequest := ⟨[⟨some "nurse", none⟩]⟩

/-- The order by the name of the ward. -/
def byWard : OrderPath := ⟨FieldPath.ofText "ward.name", .asc⟩

end Hospital

/-- The theorem at nurses by name, in the order of their wards: one comparison is counted, and one
is not. -/
theorem Select.valuePredicateCount_exact_hospital :
    ∃ q, Hospital.searcher.compile Hospital.search (some Hospital.byWard) = .ok q ∧
      q.valuePredicateCount = 1 ∧ q.joinValueNodes.length = 1 ∧ q.valueNodes.length = 2 := by
  obtain ⟨q, hq⟩ : ∃ q, Hospital.searcher.compile Hospital.search (some Hospital.byWard) = .ok q :=
    ⟨_, rfl⟩
  obtain ⟨htotal, -, -, hcompiled⟩ := Select.valuePredicateCount_exact q
  obtain ⟨item, root, ordering, hitem, hroot, rfl, hcount, hpassed, -⟩ := hcompiled _ _ _ hq
  obtain rfl := Option.some.inj hitem
  obtain rfl : Hospital.nurse = root := Option.some.inj hroot
  have hone : q.valuePredicateCount = 1 := hcount.trans rfl
  have hjoined : q.joinValueNodes.length = 1 := hpassed.trans rfl
  exact ⟨q, hq, hone, hjoined, by rw [← htotal, hone, hjoined]⟩

/-- **A value is bound and not counted.** The configuration is accepted, and all nurses in the order
of their wards are compiled to a query that binds a value. The predicate that holds it is not
counted. -/
theorem Hospital.binds_uncounted :
    Searcher.ofConfiguration configuration = .ok searcher ∧
      ∃ q, searcher.compile everyone (some byWard) = .ok q ∧ q.statement.bindings = [.bool true] ∧
        q.valueNodes.length = 1 ∧ q.valuePredicateCount = 0 :=
  ⟨rfl, _, rfl, rfl, rfl, rfl⟩

end DottedQuery
