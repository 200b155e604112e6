import DottedQuery.Proofs.Catalog.Names
import DottedQuery.Proofs.Rows.Meaning
import DottedQuery.Proofs.Search.Level
import DottedQuery.Proofs.Search.Validated

/-!
# Filters mean what they say

The query of an item accepts exactly the rows that meet the item
(`DottedQuery.Searcher.accepts_eq_met`), over every database.

What has to be ruled out is *capture*: the columns of an entity are written with the name that its
table goes by, and they must not be taken for columns of another table of that name further in.
The induction along a path therefore carries a **seat** (`DottedQuery.Seat`): the name an entity
goes by is bound to its row, no alias that is still to be taken is that name, and neither is a
pivot table of the entity. Aliases are numbered upwards, so each level has a seat for the next;
at the root it takes a catalog whose tables are not spelled like aliases
(`DottedQuery.Catalog.Avoids`) and whose pivot tables are not the tables on either side of them
(`DottedQuery.Catalog.PivotsApart`).
-/

namespace DottedQuery

/-! ### Seats -/

/-- **The seat of an entity in a frame**: its row goes by a name that nothing further in can take.
-/
structure Seat {db : Database} (f : db.Frame) (e : Entity) (row : db.Row) (qualifier : String)
    (supply : AliasSupply) : Prop where
  /-- The name is bound to the row. -/
  bound : Dict.lookup qualifier f = some (some row)
  /-- It is not an alias that is still to be taken. -/
  fresh : ∀ n, supply.next ≤ n → qualifier ≠ AliasSupply.name supply.stem n
  /-- It is not a pivot table of the entity. -/
  clear : ∀ r ∈ e.relations, ∀ p, r.through? = some p → p.table ≠ qualifier

namespace Seat

variable {db : Database} {catalog : Catalog} {supply : AliasSupply}

/-- A table of the catalog has a seat at the root. -/
theorem root {name : String} {e : Entity} (ha : catalog.Avoids supply.stem)
    (hp : catalog.PivotsApart) (he : catalog.entity? name = some e) (row : db.Row) :
    Seat [(e.table, some row)] e row e.table supply where
  bound := if_pos rfl
  fresh n _ := ha.table_ne he n
  clear r hr p hrp := hp.parent_ne he r hr p hrp

/-- An alias that is just taken is a seat, once it is bound. -/
theorem taken {name : String} {e : Entity} (ha : catalog.Avoids supply.stem)
    (he : catalog.entity? name = some e) {f : db.Frame} {row : db.Row}
    (hf : Dict.lookup supply.current f = some (some row)) :
    Seat f e row supply.current supply.taken where
  bound := hf
  fresh n hn h := by
    have hnum : supply.next = n := AliasSupply.name_inj.mp h
    simp only [AliasSupply.next_taken] at hn
    omega
  clear r hr p hrp := ha.pivot_ne he r hr p hrp supply.next

/-- A seat is not taken by the next alias. -/
theorem ne_current {f : db.Frame} {e : Entity} {row : db.Row} {qualifier : String}
    (h : Seat f e row qualifier supply) : supply.current ≠ qualifier :=
  (h.fresh supply.next (Nat.le_refl _)).symm

/-- A seat is one for every supply that has only gone on. -/
theorem after {f : db.Frame} {e : Entity} {row : db.Row} {qualifier : String}
    (h : Seat f e row qualifier supply) (k : Nat) : Seat f e row qualifier (supply.after k) where
  bound := h.bound
  fresh n hn := h.fresh n (Nat.le_trans (Nat.le_add_right _ k) hn)
  clear := h.clear

end Seat

/-! ### Looking up names -/

section Lookup

variable {α : Type} {a b : String} {v w : α} {es : List (String × α)}

theorem lookup_first : Dict.lookup a ((a, v) :: es) = some v := if_pos rfl

theorem lookup_behind (h : b ≠ a) (hes : Dict.lookup a es = some v) :
    Dict.lookup a ((b, w) :: es) = some v := by
  rw [Dict.lookup, if_neg h, hes]

end Lookup

/-! ### One level -/

namespace Relation

variable {db : Database} {f : db.Frame} (r : Relation)

/-- The key of a relation ties the rows that its two names are bound to. -/
theorem holds_keyCondition {a b : String} {row other : db.Row}
    (ha : Dict.lookup a f = some (some row)) (hb : Dict.lookup b f = some (some other)) :
    (r.keyCondition (.outer a) (.named b)).holds db f = r.keyTies db row other := by
  have hcol : ∀ c, db.value f (.outer a c) = db.cell row c := fun c => Database.value_of_lookup ha
  have hcol' : ∀ c, db.value f (.named b c) = db.cell other c :=
    fun c => Database.value_of_lookup hb
  unfold keyCondition keyTies
  cases r.kind <;> simp only [Predicate.columnsEq, Predicate.holds, hcol, hcol']

/-- The constraints of a relation test the row that their name is bound to. -/
theorem all_constraintConditions {label : String} {row : db.Row}
    (h : Dict.lookup label f = some (some row)) :
    ((r.constraintConditions label).all fun c => c.predicate.holds db f) = r.constrains db row := by
  simp only [constraintConditions, constrains, List.all_map]
  refine congrArg (fun p => r.constraints.all p) (funext fun c => ?_)
  change (Predicate.forOperator _ _ _).holds db f = _
  rw [Predicate.holds_forOperator, Database.value_of_lookup (c := .named label c.column) h]
  rfl

end Relation

namespace Filter

variable {db : Database} {f : db.Frame} {supply : AliasSupply}

/-- The truth of the conditions of a level, in a frame that binds its two names and that of the
parent. -/
theorem combine_demands {st : Step} {qualifier label : String} {row other related : db.Row}
    (hq : Dict.lookup qualifier f = some (some row))
    (ht : Dict.lookup (st.tied label) f = some (some other))
    (hl : Dict.lookup label f = some (some related)) (inner : Option Predicate) :
    combine (verdicts db f
        (st.demands qualifier label ++ (inner.map (Condition.mk .and)).toList)) =
      (st.relation.keyTies db row other && st.relation.constrains db related &&
        inner.elim true (·.holds db f)) := by
  rw [combine_verdicts_of_and]
  · rw [List.all_append, Step.demands, List.all_cons,
      st.relation.all_constraintConditions hl]
    congr 1
    · exact congrArg (· && _) (st.relation.holds_keyCondition hq ht)
    · cases inner <;> simp
  · intro c hc
    simp only [Step.demands, Relation.constraintConditions, List.cons_append, List.mem_cons,
      List.mem_append, List.mem_map, Option.mem_toList, Option.map_eq_some_iff] at hc
    rcases hc with rfl | ⟨_, _, rfl⟩ | ⟨_, _, rfl⟩ <;> rfl

section Level

variable {st : Step} {qualifier : String} {row : db.Row} {inner : Option Predicate}
  {meets : db.Row → Bool}

/-- A level without a pivot table asks for a related row of which what is nested inside holds. -/
theorem holds_level_direct (seat : Seat f st.parent row qualifier supply)
    (hthrough : st.relation.through? = none)
    (hinner : ∀ (f' : db.Frame) (related : db.Row),
      Dict.lookup supply.current f' = some (some related) →
        inner.elim true (·.holds db f') = meets related) :
    (Predicate.exists ((st.level qualifier supply.current).addPredicate? .and inner)).holds db f =
      (db.rows st.related.table).any fun related =>
        st.relation.relates db row related && meets related := by
  have hjoins : st.pivotJoins supply.current = [] := by simp [Step.pivotJoins, hthrough]
  rw [level_addPredicate?, hjoins, Predicate.holds_exists]
  refine congrArg (fun p => (db.rows st.related.table).any p) (funext fun related => ?_)
  have hq := lookup_behind (w := some related) seat.ne_current seat.bound
  have hl : Dict.lookup supply.current ((supply.current, some related) :: f) =
      some (some related) := lookup_first
  have ht : Dict.lookup (st.tied supply.current) ((supply.current, some related) :: f) =
      some (some related) := by
    rw [Step.tied_of_direct hthrough]
    exact hl
  change combine (verdicts db ((supply.current, some related) :: f) _) = _
  rw [combine_demands hq ht hl, hinner _ related hl]
  simp only [Relation.relates, Relation.ties, hthrough]

/-- A level with a pivot table asks for a row of it as well, and what is nested inside does not
see that row. -/
theorem holds_level_through (seat : Seat f st.parent row qualifier supply) {p : Pivot}
    (hthrough : st.relation.through? = some p) (hrelated : p.table ≠ st.related.table)
    (hlabel : p.table ≠ supply.current) (hqualifier : p.table ≠ qualifier)
    (hinner : ∀ (f' : db.Frame) (related : db.Row),
      Dict.lookup supply.current f' = some (some related) →
        inner.elim true (·.holds db f') = meets related) :
    (Predicate.exists ((st.level qualifier supply.current).addPredicate? .and inner)).holds db f =
      (db.rows st.related.table).any fun related =>
        st.relation.relates db row related && meets related := by
  have htied := Step.tied_of_through hthrough hrelated supply.current
  have hjoins : st.pivotJoins supply.current =
      [Relation.pivotJoin p supply.current p.table] := by
    simp [Step.pivotJoins, hthrough, htied]
  rw [level_addPredicate?, hjoins, Relation.pivotJoin, Predicate.holds_exists_joined]
  refine congrArg (fun p => (db.rows st.related.table).any p) (funext fun related => ?_)
  rw [Relation.relates, Relation.ties, hthrough, Bool.and_assoc, List.and_any_distrib_right]
  refine congrArg (fun q => (db.rows p.table).any q) (funext fun middle => ?_)
  -- the frame inside: the related row, the row between, and what is around
  have hl : Dict.lookup supply.current
      ((supply.current, some related) :: (p.table, some middle) :: f) = some (some related) :=
    lookup_first
  have hm : Dict.lookup p.table
      ((supply.current, some related) :: (p.table, some middle) :: f) = some (some middle) :=
    lookup_behind hlabel.symm lookup_first
  have hq : Dict.lookup qualifier
      ((supply.current, some related) :: (p.table, some middle) :: f) = some (some row) :=
    lookup_behind seat.ne_current (lookup_behind hqualifier seat.bound)
  have ht : Dict.lookup (st.tied supply.current)
      ((supply.current, some related) :: (p.table, some middle) :: f) = some (some middle) := by
    rw [htied]
    exact hm
  change (combine (verdicts db
      ((supply.current, some related) :: (p.table, some middle) :: f) _) &&
    combine (verdicts db ((supply.current, some related) :: (p.table, some middle) :: f) _)) = _
  rw [combine_demands hq ht hl, hinner _ related hl, Bool.and_assoc, Bool.and_assoc]
  refine congrArg (· && _) ?_
  change db.relates _ (db.value _ _) (db.value _ _) = _
  rw [Database.value_of_lookup (c := .named supply.current p.relatedKey) hl,
    Database.value_of_lookup (c := .named p.table p.relatedPivotKey) hm]
  rfl

end Level

/-! ### Levels inside levels -/

/-- **The truth of a route**: what is left of a criterion behind a path holds in a frame exactly
if the row of the seat meets the leaf behind that path. -/
theorem holds_route {catalog : Catalog} (ha : catalog.Avoids supply.stem)
    (hp : catalog.PivotsApart) (leaf : Leaf) {path : List String} {name : String} {e : Entity}
    (he : catalog.entity? name = some e) {row : db.Row} {qualifier : String}
    (seat : Seat f e row qualifier supply) {r : List Step × Bool}
    (hr : route catalog .drop leaf.field path e = .ok r) :
    ((Clause.ofRoute leaf r).predicate? qualifier supply).elim true (·.holds db f) =
      met db catalog leaf path e row := by
  induction path generalizing f name e row qualifier supply r with
  | nil =>
    obtain rfl := route_nil hr
    cases hhid : e.isHidden leaf.field with
    | true =>
      simp only [met, hhid, Bool.true_or]
      rfl
    | false =>
      simp only [met, hhid, Bool.false_or]
      change (Predicate.forOperator _ _ _).holds db f = _
      rw [Predicate.holds_forOperator,
        Database.value_of_lookup (c := .named qualifier leaf.field) seat.bound]
      rfl
  | cons first rest ih =>
    rcases route_cons_cases hr with
      ⟨relation, hrel, hs, rfl⟩ | ⟨st, r', rfl, hrel, hs, hent, hr', rfl⟩
    · -- behind a relation that is not followed nothing is asked for
      simp only [met, hrel, hs, Bool.false_eq_true, if_false]
      rfl
    · -- the alias of the level is the seat for what is nested inside
      have hst : st.relation ∈ st.parent.relations := Entity.mem_of_relation? hrel
      have hinner : ∀ (f' : db.Frame) (related : db.Row),
          Dict.lookup supply.current f' = some (some related) →
            ((Clause.ofRoute leaf r').predicate? supply.current supply.taken).elim true
              (·.holds db f') = met db catalog leaf rest st.related related :=
        fun f' related hf' =>
          ih (show catalog.Avoids supply.taken.stem from ha) hent (Seat.taken ha hent hf') hr'
      simp only [met, hrel, hs, if_true, hent]
      cases hthrough : st.relation.through? with
      | none => exact holds_level_direct seat hthrough hinner
      | some p =>
        exact holds_level_through seat hthrough
          (hp.related_ne he _ hst p hthrough _ hent) (ha.pivot_ne he _ hst p hthrough supply.next)
          (seat.clear _ hst p hthrough) hinner

end Filter

namespace Searcher

variable {db : Database} {f : db.Frame} {s : Searcher} {supply : AliasSupply} {e : Entity}
  {row : db.Row}

/-! ### Criteria and items -/

/-- **The truth of a criterion**: it leaves a condition if it counts, and that holds exactly if
the row meets the criterion. -/
theorem holds_clause (hdrop : s.policy = .drop) (ha : s.catalog.Avoids supply.stem)
    (hp : s.catalog.PivotsApart) {name : String} (he : s.catalog.entity? name = some e)
    (seat : Seat f e row e.table supply) {c : Criterion} {path : FieldPath} {op : Operator}
    {value : Value} (hc : parts? c = some (path, op, value)) {cl : Filter.Clause}
    (hcl : s.clause e path op value = .ok cl) :
    (cl.predicate? e.table supply).map (·.holds db f) =
      if c.counts e then some (c.met db s.catalog e row) else none := by
  have hmet : c.met db s.catalog e row = if path.isRelational then
      Filter.met db s.catalog ⟨path.field, op, value⟩ path.relations e row
      else Filter.Leaf.met db ⟨path.field, op, value⟩ row := by
    simp only [Criterion.met, hc]
  have hcounts : c.counts e = path.enters e := by
    simp only [Criterion.counts, path_of_parts hc, Option.map_some, Option.getD_some]
  rw [hmet, hcounts]
  unfold clause at hcl
  cases hrel : path.isRelational with
  | false =>
    have hnil : path.relations = [] := by simpa [FieldPath.isRelational] using hrel
    have henters : path.enters e = true := by simp [FieldPath.enters, hnil]
    simp only [hrel, Bool.false_eq_true, if_false] at hcl
    simp only [Bool.false_eq_true, if_false, henters, if_true, ← Except.ok.inj hcl]
    refine congrArg some ?_
    change (Predicate.forOperator _ _ _).holds db f = _
    rw [Predicate.holds_forOperator,
      Database.value_of_lookup (c := .named e.table path.field) seat.bound]
    rfl
  | true =>
    simp only [hrel, if_true, hdrop] at hcl ⊢
    obtain ⟨r, hr, rfl⟩ := map_eq_ok_iff.mp hcl
    have htruth := Filter.holds_route ha hp ⟨path.field, op, value⟩ he seat hr
    obtain ⟨first, rest, hcons⟩ := List.exists_cons_of_ne_nil
      (show path.relations ≠ [] by simpa [FieldPath.isRelational] using hrel)
    rw [hcons] at hr htruth
    rcases Filter.route_cons_cases hr with
      ⟨relation, hrel', hs, rfl⟩ | ⟨st, r', -, hrel', hs, -, -, rfl⟩
    · have henters : path.enters e = false := by simp [FieldPath.enters, hcons, hrel', hs]
      rw [henters]
      rfl
    · have henters : path.enters e = true := by simp [FieldPath.enters, hcons, hrel', hs]
      rw [henters, hcons, if_pos rfl, ← htruth]
      rfl

/-- What a criterion adds to the verdicts: its own, if it counts, and nothing otherwise. -/
theorem verdicts_cons (hdrop : s.policy = .drop) (ha : s.catalog.Avoids supply.stem)
    (hp : s.catalog.PivotsApart) {name : String} (he : s.catalog.entity? name = some e)
    (seat : Seat f e row e.table supply) {c : Criterion} {path : FieldPath} {op : Operator}
    {value : Value} (hc : parts? c = some (path, op, value)) {cl : Filter.Clause}
    (hcl : s.clause e path op value = .ok cl) (b : Combinator)
    (cls : List (Combinator × Filter.Clause)) :
    verdicts db f (Plan.conditions e.table ((b, cl) :: cls) supply) =
      (if c.counts e then [(b, c.met db s.catalog e row)] else []) ++
        verdicts db f (Plan.conditions e.table cls (supply.after cl.steps.length)) := by
  have htruth := holds_clause hdrop ha hp he seat hc hcl
  rw [verdicts_eq_map, verdicts_eq_map, Plan.conditions, List.map_append]
  congr 1
  cases hcount : c.counts e with
  | false =>
    rw [hcount] at htruth
    have hnone : cl.predicate? e.table supply = none := by simpa using htruth
    simp [hnone]
  | true =>
    rw [hcount, if_pos rfl] at htruth
    obtain ⟨p, hsome, hholds⟩ := Option.map_eq_some_iff.mp htruth
    simp [hsome, hholds]

/-- The verdicts on the conditions of criteria after the first one are those on the criteria that
count. -/
theorem verdicts_conditions (hdrop : s.policy = .drop) (ha : s.catalog.Avoids supply.stem)
    (hp : s.catalog.PivotsApart) {name : String} (he : s.catalog.entity? name = some e)
    (seat : Seat f e row e.table supply) {item position : Nat} {cs : List Criterion}
    {cls : List (Combinator × Filter.Clause)}
    (h : s.clauses item e (position + 1) cs = .ok cls) :
    verdicts db f (Plan.conditions e.table cls supply) =
      (cs.filter (·.counts e)).map fun c => (.ofOr c.or, c.met db s.catalog e row) := by
  induction cs generalizing position cls supply with
  | nil =>
    simp only [clauses] at h
    rw [← Except.ok.inj h]
    rfl
  | cons c cs ih =>
    obtain ⟨path, op, value, cl, cls', hc, hcl, hcls, rfl⟩ := clauses_cons_cases h
    rw [verdicts_cons hdrop ha hp he seat hc hcl,
      ih (show s.catalog.Avoids (supply.after cl.steps.length).stem from ha)
        (seat.after cl.steps.length) hcls]
    cases hcount : c.counts e <;> simp [hcount, combinator]

/-- **The truth of the criteria of an item**: their conditions, taken together, hold exactly if
the row meets all criteria of one of the groups. -/
theorem combine_conditions (hdrop : s.policy = .drop) (ha : s.catalog.Avoids supply.stem)
    (hp : s.catalog.PivotsApart) {name : String} (he : s.catalog.entity? name = some e)
    (seat : Seat f e row e.table supply) {index : Nat} {item : SearchItem}
    {cls : List (Combinator × Filter.Clause)}
    (h : s.clauses index e 0 item.criteriaList = .ok cls) :
    combine (verdicts db f (Plan.conditions e.table cls supply)) =
      item.met db s.catalog e row := by
  -- the first condition may stem from any criterion, and its combinator says nothing
  have key : combine (verdicts db f (Plan.conditions e.table cls supply)) =
      match item.criteriaList.filter (·.counts e) with
      | [] => true
      | c :: cs => combine ((.and, c.met db s.catalog e row) ::
          cs.map fun c => (.ofOr c.or, c.met db s.catalog e row)) := by
    cases hcs : item.criteriaList with
    | nil =>
      rw [hcs, clauses] at h
      rw [← Except.ok.inj h]
      rfl
    | cons c cs =>
      rw [hcs] at h
      obtain ⟨path, op, value, cl, cls', hc, hcl, hcls, rfl⟩ := clauses_cons_cases h
      rw [verdicts_cons hdrop ha hp he seat hc hcl, verdicts_conditions hdrop
        (show s.catalog.Avoids (supply.after cl.steps.length).stem from ha) hp he
        (seat.after cl.steps.length) hcls]
      cases hcount : c.counts e with
      | false =>
        simp only [hcount, Bool.false_eq_true, if_false, List.nil_append, not_false_eq_true,
          List.filter_cons_of_neg]
        cases cs.filter (·.counts e) <;> rfl
      | true => simp [hcount, combine]
  rw [key, SearchItem.met, SearchItem.groups]
  cases hcs : item.criteriaList.filter (·.counts e) with
  | nil => rfl
  | cons c cs =>
    have hne : ((c :: cs).splitBy fun _ c => !c.or).isEmpty = false := by
      simp [List.isEmpty_eq_false_iff]
    rw [hne, Bool.false_or]
    exact combine_eq_groups Criterion.or (Criterion.met db s.catalog e row) cs c .and

/-- **Compilation preserves meaning**: where hidden leaves are left out, the query of an item
reads the table of its entity, and over every database it accepts exactly the rows that meet the
item. -/
theorem accepts_eq_met {catalog : Catalog} (ha : catalog.Avoids AliasSupply.existsStem)
    (hp : catalog.PivotsApart) {item : SearchItem} {q : Select}
    (h : (Searcher.mk catalog .drop).compile ⟨[item]⟩ none = .ok q) :
    ∃ e, catalog.resolve? (item.key?.getD "") = some e ∧ q.source = ⟨e.table, none⟩ ∧
      ∀ (db : Database) (row : db.Row), q.accepts db row = item.met db catalog e row := by
  obtain ⟨p, hplan, rfl⟩ := plan_of_compile h
  obtain ⟨hentity, hclauses, -⟩ := plan_cases hplan
  have hres := resolve?_of_entityOf hentity
  obtain ⟨name, -, he⟩ := Option.bind_eq_some_iff.mp hres
  refine ⟨p.entity, hres, rfl, fun db row => ?_⟩
  have seat : Seat [(p.entity.table, some row)] p.entity row p.entity.table .forExists :=
    Seat.root ha hp he row
  exact combine_conditions rfl ha hp he seat hclauses

/-- The theorem at a search with two groups, through a pivot table and to a hidden field. -/
theorem accepts_eq_met_blog :
    ∃ q, Blog.searcher.compile ⟨[Blog.admins]⟩ none = .ok q ∧
      ∃ e, Blog.catalog.resolve? (Blog.admins.key?.getD "") = some e ∧
        q.source = ⟨e.table, none⟩ ∧ ∀ (db : Database) (row : db.Row),
          q.accepts db row = Blog.admins.met db Blog.catalog e row :=
  ⟨_, rfl, accepts_eq_met (Blog.avoids (Or.inl rfl)) Blog.pivotsApart rfl⟩

end Searcher

end DottedQuery
