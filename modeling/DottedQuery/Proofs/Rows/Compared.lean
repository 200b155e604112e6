import DottedQuery.Proofs.Rows.Ordered

/-!
# Orders and filters on one path

A path can be used in two ways. A filter asks whether there is a row at the end of it that passes a
comparison; an order shows the cell at the end of it. The two go different ways in a statement, the
one through nested sub-queries and the other through left joins, but they lead to the same rows: an
ordered search shows a cell that passes a comparison beside exactly those of its rows that the
filter on the path would keep (`DottedQuery.Searcher.met_iff_shown`). So what an order tells about
a row is what filters on its path could ask of the row, comparison by comparison.

Three things have to be as they are in SQL. A null equals nothing and passes no comparison, for a
row that leads nowhere is shown with a null and is kept by no filter; and equality is symmetric,
for filters write the two sides of a key in the one order and joins in the other
(`DottedQuery.Relation.leads_eq_relates`).
-/

namespace DottedQuery

open AliasSupply (existsStem joinStem)

/-- Where the place of what is missing passes no test, only the members are tested. -/
theorem any_orNothing {α : Type} (as : List α) (test : α → Bool) :
    (orNothing as).any (fun a => a.elim false test) = as.any test := by
  cases as with
  | nil => rfl
  | cons a as =>
    rw [orNothing, List.any_cons, List.any_map, List.any_cons]
    rfl

section Paths

variable {db : Database} {catalog : Catalog} {e : Entity} {names : List String}
  {links : List OrderPath.Link}

/-- **The ends of the trails are the rows that filters compare**: of the trails of a path that
filters may follow to a field that is not hidden, one ends with a field that passes a comparison
exactly if the row that they start from meets the leaf behind the path. -/
theorem any_trails (leaf : Filter.Leaf) (h : catalog.Follows e names links)
    (hsymm : ∀ c c', db.relates .eq c c' = db.relates .eq c' c)
    (hnull : db.tests leaf.op db.null leaf.value = false)
    (hopen : ∀ l ∈ links, l.1.isSearchable = true)
    (hshown : ∀ target, catalog.Reaches e names target → target.isHidden leaf.field = false)
    (row : Option db.Row) :
    ((trails db catalog names e row).any fun trail =>
        db.tests leaf.op (db.field (trail.getLastD row) leaf.field) leaf.value) =
      row.elim false (Filter.met db catalog leaf names e) := by
  induction h generalizing row with
  | nil e =>
    have hfield : e.isHidden leaf.field = false := hshown e (.here e)
    cases row with
    | none => simpa [trails, Database.field] using hnull
    | some row => simp [trails, Database.field, Filter.met, Filter.Leaf.met, hfield]
  | @cons e name names l links hrel hent hjoinable _ ih =>
    have hsearchable : l.1.isSearchable = true := hopen l List.mem_cons_self
    have hbehind := ih (fun l hl => hopen l (List.mem_cons_of_mem _ hl))
      fun target htarget => hshown target (.there hrel hent htarget)
    -- a trail ends where the rest of it does, which begins at its first row
    simp only [trails_cons hrel hent, List.any_flatMap, List.any_map, Function.comp_def,
      List.getLastD_cons, hbehind]
    cases row with
    | none => simp [Relation.partners]
    | some row =>
      simp only [Relation.partners, any_orNothing, List.any_filter, Option.elim_some, Filter.met,
        hrel, hsearchable, if_true, hent, Relation.leads_eq_relates db hjoinable hsymm]

end Paths

namespace Searcher

variable {s : Searcher}

/-- **An order shows what filters on its path compare.** Let a request compile with an order whose
relations are all open to filters. Over every database in which equality is symmetric and a null
equals nothing, take any comparison that a null does not pass. The ordered query finds a row with a
cell that passes the comparison exactly if the query without the order finds the row and the row
meets the filter that makes this comparison with the field of the order, behind the relations of
the order. -/
theorem met_iff_shown (he : s.catalog.Avoids existsStem) (hj : s.catalog.Avoids joinStem)
    {request : SearchRequest} {order : OrderPath} {q : Select}
    (h : s.compile request (some order) = .ok q) :
    ∃ (item : SearchItem) (e : Entity) (q₀ : Select), request.items.getLast? = some item ∧
      s.catalog.resolve? (item.key?.getD "") = some e ∧ s.compile request none = .ok q₀ ∧
      ∀ links, s.catalog.Follows e order.path.relations links →
        (∀ l ∈ links, l.1.isSearchable = true) →
        ∀ db : Database, db.NullsApart →
          (∀ c c', db.relates .eq c c' = db.relates .eq c' c) →
          ∀ op value, db.tests op db.null value = false →
            ∀ row, (∃ cell, (row, [cell]) ∈ q.results db ∧ db.tests op cell value = true) ↔
              row ∈ q₀.selected db ∧
                Filter.met db s.catalog ⟨order.path.field, op, value⟩ order.path.relations e row =
                  true := by
  obtain ⟨index, item, p, filters, joins, joins', hlast, hplan, rfl, hnone⟩ :=
    compile_none_of_compile h
  refine ⟨item, p.entity, _, hlast, resolve?_of_entityOf (plan_cases hplan).1, hnone,
    fun links hfollows hopen db hdb hsymm op value hnull row => ?_⟩
  have hmet := any_trails ⟨order.path.field, op, value⟩ hfollows hsymm hnull hopen
    (admitted_of_plan hplan).shown (some row)
  rw [Option.elim_some] at hmet
  rw [← hmet, results_of_plan he hj hplan hdb filters joins joins']
  simp only [List.any_eq_true, List.mem_flatMap, List.mem_map, Prod.mk.injEq, List.cons.injEq,
    and_true]
  constructor
  · rintro ⟨cell, ⟨row', hrow', trail, htrail, rfl, rfl⟩, htest⟩
    exact ⟨hrow', trail, htrail, htest⟩
  · rintro ⟨hrow, trail, htrail, htest⟩
    exact ⟨_, ⟨row, hrow, trail, htrail, rfl, rfl⟩, htest⟩

end Searcher

end DottedQuery
