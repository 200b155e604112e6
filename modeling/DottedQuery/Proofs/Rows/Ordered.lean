import DottedQuery.Proofs.Rows.Agreement
import DottedQuery.Proofs.Rows.Faithful
import DottedQuery.Proofs.Search.Written

/-!
# Orders keep the rows

An order through relations joins tables to a query, and a join can drop rows, double them and put
names in the way of others. What the joins of an order really do is said here without a query. A
**trail** (`DottedQuery.trails`) is a choice of one row for every relation of the path, each
related to the one before it, with nothing in the place of a row where none is related and from
there on.

An ordered search finds the rows that the search without an order finds, each once for every
trail that starts from it, and it orders by the field of the last row of the trail
(`DottedQuery.Searcher.results_of_ordered`). There always is a trail, so no row is lost; and where
each relation leads to one row at most there is only one, so no row is doubled.

For the joins it is essential that a null equals nothing (`DottedQuery.Database.NullsApart`): what
stands in the key of a row that is not there must not find a partner. For the conditions it is
essential that no table is spelled like the alias of a join, for then nothing in them, at any
depth, refers to a joined table.
-/

namespace DottedQuery

open AliasSupply (existsStem joinStem renumber)

/-! ### Rows that may be missing -/

namespace Database

variable (db : Database)

/-- A null equals nothing, not even another null. -/
structure NullsApart : Prop where
  /-- It does not on the left. -/
  left : ∀ c, db.relates .eq db.null c = false
  /-- It does not on the right. -/
  right : ∀ c, db.relates .eq c db.null = false

/-- The field of a row, which is null if there is no row. -/
def field (row : Option db.Row) (name : String) : db.Cell :=
  row.elim db.null fun row => db.cell row name

variable {db}

/-- A column is the field of what its qualifier is bound to. -/
theorem value_eq_field {f : db.Frame} {c : Column} {row : Option db.Row}
    (h : Dict.lookup c.table f = some row) : db.value f c = db.field row c.name := by
  cases row with
  | none => simp only [value, h]; rfl
  | some row => exact value_of_lookup h

end Database

namespace Select

variable (db : Database)

/-- **What a query finds**: the rows of the table it reads, each with the cells it is ordered by,
and once for every choice of partners. -/
def results (q : Select) : List (db.Row × List db.Cell) :=
  (q.frames db []).filterMap fun f =>
    (Dict.lookup q.source.qualifier f).join.map fun row =>
      (row, q.orderBy.map fun term => db.value f term.column)

/-- The rows that a query finds. -/
def selected (q : Select) : List db.Row := (q.results db).map Prod.fst

end Select

/-! ### Trails -/

/-- All of some things, or nothing in their place if there are none. -/
def orNothing {α : Type} : List α → List (Option α)
  | [] => [none]
  | a :: as => some a :: as.map some

theorem orNothing_ne_nil {α : Type} (as : List α) : orNothing as ≠ [] := by
  cases as <;> simp [orNothing]

theorem map_orNothing_of_ne_nil {α β : Type} {as : List α} (h : as ≠ []) (k : Option α → β) :
    (orNothing as).map k = as.map fun a => k (some a) := by
  obtain ⟨a, as, rfl⟩ := List.exists_cons_of_ne_nil h
  simp [orNothing]

section Trails

variable (db : Database)

/-- Whether a relation without a pivot table leads from one row to another: the owner key equals
the foreign key, and the other row satisfies the constraints. -/
def Relation.leads (r : Relation) (row related : db.Row) : Bool :=
  (match r.kind with
    | .belongsTo => db.relates .eq (db.cell related r.ownerKey) (db.cell row r.foreignKey)
    | _ => db.relates .eq (db.cell row r.ownerKey) (db.cell related r.foreignKey)) &&
  r.constrains db related

/-- Where equality is symmetric, these are the rows that filters follow the relation to. -/
theorem Relation.leads_eq_relates {r : Relation} (hr : r.through? = none)
    (hsymm : ∀ c c', db.relates .eq c c' = db.relates .eq c' c) (row related : db.Row) :
    r.leads db row related = r.relates db row related := by
  simp only [leads, relates, ties, hr, keyTies]
  refine congrArg (· && _) ?_
  cases r.kind <;> simp only [hsymm]

/-- The rows that a relation leads to from a row, or nothing in their place if there are none. -/
def Relation.partners (r : Relation) (related : Entity) : Option db.Row → List (Option db.Row)
  | none => [none]
  | some row => orNothing ((db.rows related.table).filter (r.leads db row))

/-- **The trails of a path** from a row: every choice of a related row for each relation in turn,
with nothing in its place where there is none. -/
def trails (catalog : Catalog) :
    List String → Entity → Option db.Row → List (List (Option db.Row))
  | [], _, _ => [[]]
  | name :: names, e, row =>
    match e.relation? name with
    | none => []
    | some r =>
      match catalog.entity? r.related with
      | none => []
      | some related =>
        (r.partners db related row).flatMap fun next =>
          (trails catalog names related next).map (next :: ·)

/-- Every relation of a path leads to one row at most, from a row and from those it leads to. -/
def SingleValued (catalog : Catalog) : List String → Entity → db.Row → Prop
  | [], _, _ => True
  | name :: names, e, row => ∀ r related, e.relation? name = some r →
    catalog.entity? r.related = some related →
      ((db.rows related.table).filter (r.leads db row)).length ≤ 1 ∧
        ∀ next ∈ db.rows related.table, r.leads db row next = true →
          SingleValued catalog names related next

variable {db} {catalog : Catalog} {e : Entity} {names : List String}
  {links : List OrderPath.Link}

theorem Relation.partners_ne_nil (r : Relation) (related : Entity) (row : Option db.Row) :
    r.partners db related row ≠ [] := by
  cases row with
  | none => simp [partners]
  | some row => exact orNothing_ne_nil _

/-- The trails along a link and the relations behind it. -/
theorem trails_cons {name : String} {r : Relation} {related : Entity}
    (hrel : e.relation? name = some r) (hent : catalog.entity? r.related = some related)
    (row : Option db.Row) :
    trails db catalog (name :: names) e row =
      (r.partners db related row).flatMap fun next =>
        (trails db catalog names related next).map (next :: ·) := by
  simp only [trails, hrel, hent]

/-- **There always is a trail**: a row with nothing behind it has the empty one. -/
theorem trails_ne_nil (h : catalog.Follows e names links) (row : Option db.Row) :
    trails db catalog names e row ≠ [] := by
  induction h generalizing row with
  | nil e => simp [trails]
  | cons hrel hent _ _ ih =>
    rw [trails_cons hrel hent]
    obtain ⟨next, hnext⟩ := List.exists_mem_of_ne_nil _ (Relation.partners_ne_nil _ _ row)
    intro hnil
    simp only [List.flatMap_eq_nil_iff, List.map_eq_nil_iff] at hnil
    exact ih next (hnil next hnext)

/-- Behind nothing there is one trail. -/
theorem length_trails_none (h : catalog.Follows e names links) :
    (trails db catalog names e none).length = 1 := by
  induction h with
  | nil e => rfl
  | cons hrel hent _ _ ih =>
    rw [trails_cons hrel hent]
    simp [Relation.partners, ih]

/-- **Where each relation leads to one row at most there is one trail.** -/
theorem length_trails_of_singleValued (h : catalog.Follows e names links) {row : db.Row}
    (hs : SingleValued db catalog names e row) :
    (trails db catalog names e (some row)).length = 1 := by
  induction h generalizing row with
  | nil e => rfl
  | @cons e name names l links hrel hent _ hrest ih =>
    obtain ⟨hlength, hnext⟩ := hs l.1 l.2 hrel hent
    rw [trails_cons hrel hent, Relation.partners]
    match hothers : (db.rows l.2.table).filter (l.1.leads db row) with
    | [] => simp [orNothing, length_trails_none hrest]
    | [next] =>
      obtain ⟨hmem, hleads⟩ : next ∈ db.rows l.2.table ∧ l.1.leads db row next = true := by
        rw [← List.mem_filter, hothers]
        exact List.mem_cons_self
      simp [orNothing, ih (hnext next hmem hleads)]
    | _ :: _ :: _ =>
      rw [hothers] at hlength
      simp at hlength

end Trails

/-! ### The frames of a chain of joins -/

/-- A trail, its rows going by the aliases of a supply. -/
def labelled {db : Database} : AliasSupply → List (Option db.Row) → db.Frame
  | _, [] => []
  | supply, row :: rows => (supply.current, row) :: labelled supply.taken rows

/-- A trail goes by aliases only. -/
theorem lookup_labelled {db : Database} {supply : AliasSupply} {name : String}
    (h : ∀ n, name ≠ AliasSupply.name supply.stem n) (rows : List (Option db.Row)) :
    Dict.lookup name (labelled supply rows) = none := by
  induction rows generalizing supply with
  | nil => rfl
  | cons row rows ih =>
    have hne : supply.current ≠ name := (h supply.next).symm
    rw [labelled, Dict.lookup, if_neg hne]
    exact ih (show ∀ n, name ≠ AliasSupply.name supply.taken.stem n from h)

/-- No alias that a supply still has to give is bound in a frame. -/
def Vacant {db : Database} (supply : AliasSupply) (f : db.Frame) : Prop :=
  ∀ n, supply.next ≤ n → Dict.lookup (AliasSupply.name supply.stem n) f = none

namespace Vacant

variable {db : Database} {supply : AliasSupply} {f : db.Frame} (h : Vacant supply f)
include h

theorem current : Dict.lookup supply.current f = none := h supply.next (Nat.le_refl _)

/-- An alias that is taken is bound to its row. -/
theorem lookup_taken (row : Option db.Row) :
    Dict.lookup supply.current (f ++ [(supply.current, row)]) = some row := by
  rw [Dict.lookup_append, h.current, Option.none_or]
  exact lookup_first

/-- The aliases after it are not. -/
theorem taken (row : Option db.Row) : Vacant supply.taken (f ++ [(supply.current, row)]) := by
  intro n hn
  rw [AliasSupply.next_taken] at hn
  have hne : supply.current ≠ AliasSupply.name supply.stem n := by
    intro heq
    have hnum : supply.next = n := AliasSupply.name_inj.mp heq
    omega
  have hbelow : Dict.lookup (AliasSupply.name supply.stem n) f = none := h n (by omega)
  change Dict.lookup (AliasSupply.name supply.stem n) _ = none
  rw [Dict.lookup_append, hbelow, Option.none_or, Dict.lookup, if_neg hne]
  rfl

end Vacant

/-- A left join continues a frame with each row that meets its conditions, or with nothing. -/
theorem Join.extensions_left {db : Database} {outer f : db.Frame} {source : Source}
    {on : List Condition} (meets : db.Row → Bool)
    (h : ∀ row, combine (verdicts db (f ++ [(source.qualifier, some row)] ++ outer) on) =
      meets row) :
    Join.extensions db outer ⟨.left, source, on⟩ f =
      (orNothing ((db.rows source.table).filter meets)).map fun next =>
        f ++ [(source.qualifier, next)] := by
  have hpartners : ((db.rows source.table).map fun row =>
      f ++ [(source.qualifier, some row)]).filter
        (fun f' => combine (verdicts db (f' ++ outer) on)) =
      ((db.rows source.table).filter meets).map fun row => f ++ [(source.qualifier, some row)] := by
    rw [List.filter_map]
    exact congrArg _ (List.filter_congr fun row _ => h row)
  unfold Join.extensions
  by_cases hnone : (db.rows source.table).filter meets = []
  · rw [if_pos ⟨rfl, by rw [hpartners, hnone, List.map_nil]⟩, hnone]
    rfl
  · rw [if_neg fun hleft => hnone (by simpa [hpartners] using hleft.2), hpartners,
      map_orNothing_of_ne_nil hnone]

/-- Joining tables to several frames is joining them to each. -/
theorem joinedFrames_eq_flatMap {db : Database} (outer : db.Frame) (js : List Join)
    (fs : List db.Frame) :
    joinedFrames db outer js fs = fs.flatMap fun f => joinedFrames db outer js [f] := by
  induction js generalizing fs with
  | nil => simp [joinedFrames]
  | cons j js ih =>
    simp only [joinedFrames, List.flatMap_cons, List.flatMap_nil, List.append_nil]
    rw [ih, List.flatMap_assoc]
    exact congrArg (fun k => fs.flatMap k) (funext fun f => (ih _).symm)

namespace OrderPath

variable {db : Database} {f : db.Frame} {parent : String} {row : Option db.Row}

/-- The conditions of a join hold of the rows that the relation leads to, and never behind a row
that is not there. -/
theorem holds_joinOn (hdb : db.NullsApart) {r : Relation} {label : String} {other : db.Row}
    (hparent : Dict.lookup parent f = some row)
    (hlabel : Dict.lookup label f = some (some other)) :
    combine (verdicts db f (r.joinOn parent label)) = row.elim false (r.leads db · other) := by
  have hof : ∀ name, db.value f (.named parent name) = db.field row name :=
    fun name => Database.value_eq_field (c := .named parent name) hparent
  have hto : ∀ name, db.value f (.named label name) = db.cell other name :=
    fun name => Database.value_of_lookup (c := .named label name) hlabel
  rw [combine_verdicts_of_and, Relation.joinOn, List.all_cons, r.all_constraintConditions hlabel]
  · cases row with
    | none =>
      -- the key of a row that is not there is null
      have hnull : ∀ name, db.field none name = db.null := fun _ => rfl
      cases r.kind <;>
        simp only [Predicate.columnsEq, Condition.and, Predicate.holds, hof, hto, hnull,
          hdb.left, hdb.right, Bool.false_and, Option.elim_none]
    | some row =>
      have hcell : ∀ name, db.field (some row) name = db.cell row name := fun _ => rfl
      simp only [Relation.leads, Option.elim_some]
      refine congrArg (· && _) ?_
      cases r.kind <;>
        simp only [Predicate.columnsEq, Condition.and, Predicate.holds, hof, hto, hcell]
  · intro c hc
    simp only [Relation.joinOn, Relation.constraintConditions, List.mem_cons, List.mem_map] at hc
    rcases hc with rfl | ⟨_, _, rfl⟩ <;> rfl

/-- **One join**: a frame goes on with each partner of the row that its parent is bound to. -/
theorem extensions_of_link (hdb : db.NullsApart) (r : Relation) (related : Entity) {label : String}
    (hparent : Dict.lookup parent f = some row) (hlabel : Dict.lookup label f = none) :
    Join.extensions db [] ⟨.left, ⟨related.table, some label⟩, r.joinOn parent label⟩ f =
      (r.partners db related row).map fun next => f ++ [(label, next)] := by
  rw [Join.extensions_left fun other => row.elim false (r.leads db · other)]
  · cases row with
    | none => simp [Relation.partners, orNothing, Source.qualifier]
    | some row => rfl
  · intro other
    rw [List.append_nil]
    refine holds_joinOn hdb ?_ ?_
    · rw [Dict.lookup_append, hparent, Option.some_or]
    · rw [Dict.lookup_append, hlabel, Option.none_or]
      exact lookup_first

variable {catalog : Catalog} {e : Entity} {names : List String} {links : List Link}

/-- **The joins of a chain** continue a frame by the trails from the row that their parent is bound
to. -/
theorem joinedFrames_chain (hdb : db.NullsApart) (h : catalog.Follows e names links)
    {supply : AliasSupply} (hparent : Dict.lookup parent f = some row)
    (hvacant : Vacant supply f) :
    joinedFrames db [] (chainJoins links parent supply) [f] =
      (trails db catalog names e row).map fun trail => f ++ labelled supply trail := by
  induction h generalizing f parent row supply with
  | nil e => simp [chainJoins, joinedFrames, trails, labelled]
  | @cons e name names l links hrel hent _ hrest ih =>
    -- the joined row is the parent of the joins behind
    have hnext : ∀ next : Option db.Row,
        joinedFrames db [] (chainJoins links supply.current supply.taken)
            [f ++ [(supply.current, next)]] =
          (trails db catalog names l.2 next).map fun trail =>
            f ++ labelled supply (next :: trail) := by
      intro next
      rw [ih (hvacant.lookup_taken next) (hvacant.taken next)]
      simp only [labelled, List.append_assoc, List.cons_append, List.nil_append]
    rw [chainJoins, joinedFrames, List.flatMap_cons, List.flatMap_nil, List.append_nil,
      extensions_of_link hdb l.1 l.2 hparent hvacant.current, joinedFrames_eq_flatMap,
      List.flatMap_map, trails_cons hrel hent, List.map_flatMap]
    refine congrArg (fun k => List.flatMap k _) (funext fun next => ?_)
    rw [hnext, List.map_map]
    rfl

/-- **The end of a chain** is bound to the last row of the trail. -/
theorem lookup_chainEnd (h : catalog.Follows e names links) {supply : AliasSupply}
    (hparent : Dict.lookup parent f = some row) (hvacant : Vacant supply f)
    {trail : List (Option db.Row)} (htrail : trail ∈ trails db catalog names e row) :
    Dict.lookup (chainEnd links parent supply) (f ++ labelled supply trail) =
      some (trail.getLastD row) := by
  induction h generalizing f parent row supply trail with
  | nil e =>
    obtain rfl : trail = [] := by simpa [trails] using htrail
    rw [labelled, List.append_nil]
    exact hparent
  | @cons e name names l links hrel hent _ hrest ih =>
    rw [trails_cons hrel hent] at htrail
    obtain ⟨next, -, htrail⟩ := List.mem_flatMap.mp htrail
    obtain ⟨rest, hmem, rfl⟩ := List.mem_map.mp htrail
    have hend := ih (hvacant.lookup_taken next) (hvacant.taken next) hmem
    rw [List.append_assoc] at hend
    rw [List.getLastD_cons]
    exact hend

end OrderPath

/-! ### Ordered searches -/

/-- Without joins a query finds each row that it accepts once. -/
theorem Select.selected_of_unjoined {q : Select} (h : q.joins = []) (db : Database) :
    q.selected db = (db.rows q.source.table).filter (q.accepts db) := by
  obtain ⟨ps, source, js, ws, os⟩ := q
  obtain rfl : js = [] := h
  have hrow : ∀ row : db.Row,
      Dict.lookup source.qualifier [(source.qualifier, some row)] = some (some row) :=
    fun _ => lookup_first
  simp only [selected, results, frames, joinedFrames, List.append_nil, List.filter_map,
    List.filterMap_map, List.map_filterMap, Function.comp_def, hrow, Option.join_some,
    Option.map_some, List.filterMap_some]
  rfl

/-- What is made from each member, kept or dropped with the member itself. -/
theorem filter_flatMap_of_const {α β : Type} {as : List α} {k : α → List β} {keepsOf : β → Bool}
    {keeps : α → Bool} (h : ∀ a, ∀ b ∈ k a, keepsOf b = keeps a) :
    (as.flatMap k).filter keepsOf = (as.filter keeps).flatMap k := by
  induction as with
  | nil => rfl
  | cons a as ih =>
    rw [List.flatMap_cons, List.filter_append, ih, List.filter_cons]
    cases ha : keeps a with
    | true =>
      rw [if_pos rfl, List.flatMap_cons,
        List.filter_eq_self.mpr fun b hb => (h a b hb).trans ha]
    | false =>
      rw [if_neg Bool.false_ne_true,
        List.filter_eq_nil_iff.mpr fun b hb => by simp [h a b hb, ha], List.nil_append]

namespace Searcher

variable {s : Searcher} {index : Nat} {item : SearchItem} {order : OrderPath} {p : Plan}
  {db : Database}

/-- **No condition refers to a joined table**: the conditions of a plan hold behind the rows of a
trail as they do without them. -/
theorem verdicts_behind (he : s.catalog.Avoids existsStem) (hj : s.catalog.Avoids joinStem)
    (hplan : s.plan index item (some order) = .ok p) (filters joins : Nat) (row : db.Row)
    (trail : List (Option db.Row)) :
    verdicts db ([(p.entity.table, some row)] ++ labelled (.after .forJoins joins) trail)
        (Plan.conditions p.entity.table p.clauses (.after .forExists filters)) =
      verdicts db [(p.entity.table, some row)]
        (Plan.conditions p.entity.table p.clauses (.after .forExists filters)) := by
  have hkept := keptBy_of_plan he hj hplan 0 1
  -- moving the aliases of joins moves nothing in the conditions
  have hsame : relabelConditions (renumber 0 1)
      (Plan.conditions p.entity.table p.clauses (.after .forExists filters)) =
        Plan.conditions p.entity.table p.clauses (.after .forExists filters) :=
    Plan.conditions_after (k := 0) hkept.table hkept.steps (AliasSupply.renumber_exists 0 1)
  have hagree : Database.AgreeOn (renumber 0 1)
      (labelled (.after .forJoins joins) trail) ([] : db.Frame) := by
    intro name hname
    refine lookup_labelled (fun n heq => ?_) trail
    have hmoved : AliasSupply.name joinStem (n + 1) = AliasSupply.name joinStem n := by
      rw [← AliasSupply.renumber_join 0 1 n, ← show name = AliasSupply.name joinStem n from heq,
        hname]
    exact Nat.succ_ne_self n (AliasSupply.name_inj.mp hmoved)
  exact verdicts_congr _ hsame (hagree.behind [(p.entity.table, some row)])

/-- No alias of a join is bound where only the table of a plan is. -/
theorem vacant_root (hj : s.catalog.Avoids joinStem)
    (hplan : s.plan index item (some order) = .ok p) (joins : Nat) (row : db.Row) :
    Vacant (.after .forJoins joins) [(p.entity.table, some row)] := by
  obtain ⟨name, hent⟩ := entity_of_plan hplan
  exact fun n _ => if_neg (hj.table_ne hent n)

/-- **The frames of an ordered plan**: each row that is accepted, with each of its trails. -/
theorem frames_of_plan (he : s.catalog.Avoids existsStem) (hj : s.catalog.Avoids joinStem)
    (hplan : s.plan index item (some order) = .ok p) (hdb : db.NullsApart) (filters joins : Nat) :
    (p.query ⟨.after .forExists filters, .after .forJoins joins⟩).frames db [] =
      ((db.rows p.entity.table).filter
        ((p.query ⟨.after .forExists filters, .after .forJoins joins⟩).accepts db)).flatMap
          fun row => (trails db s.catalog order.path.relations p.entity (some row)).map
            fun trail =>
              [(p.entity.table, some row)] ++ labelled (.after .forJoins joins) trail := by
  obtain ⟨ls, hls, hfollows⟩ := order_of_plan hplan
  have hchain : ∀ row : db.Row,
      joinedFrames db [] (OrderPath.chainJoins p.links p.entity.table (.after .forJoins joins))
          [[(p.entity.table, some row)]] =
        (trails db s.catalog order.path.relations p.entity (some row)).map fun trail =>
          [(p.entity.table, some row)] ++ labelled (.after .forJoins joins) trail := by
    intro row
    have hlinks : p.links = ls := by simp [Plan.links, hls]
    rw [hlinks]
    exact OrderPath.joinedFrames_chain hdb hfollows lookup_first (vacant_root hj hplan joins row)
  simp only [Plan.query, Select.frames, Source.qualifier, Option.getD_none, List.append_nil]
  rw [joinedFrames_eq_flatMap, List.flatMap_map]
  simp only [hchain]
  refine filter_flatMap_of_const fun row f hf => ?_
  obtain ⟨trail, -, rfl⟩ := List.mem_map.mp hf
  rw [verdicts_behind he hj hplan filters joins row trail]
  rfl

/-- **What an ordered plan finds**: each row that the plan without the order finds, once for every
trail, with the field of the last row of it. -/
theorem results_of_plan (he : s.catalog.Avoids existsStem) (hj : s.catalog.Avoids joinStem)
    (hplan : s.plan index item (some order) = .ok p) (hdb : db.NullsApart)
    (filters joins joins' : Nat) :
    (p.query ⟨.after .forExists filters, .after .forJoins joins⟩).results db =
      ((p.unordered.query ⟨.after .forExists filters, .after .forJoins joins'⟩).selected db).flatMap
        fun row => (trails db s.catalog order.path.relations p.entity (some row)).map
          fun trail => (row, [db.field (trail.getLastD (some row)) order.path.field]) := by
  obtain ⟨ls, hls, hfollows⟩ := order_of_plan hplan
  -- the query without the order accepts the same rows, having the same conditions
  have hplain : (p.unordered.query ⟨.after .forExists filters, .after .forJoins joins'⟩).selected
      db = (db.rows p.entity.table).filter
        ((p.query ⟨.after .forExists filters, .after .forJoins joins⟩).accepts db) :=
    Select.selected_of_unjoined rfl db
  rw [hplain, Select.results, frames_of_plan he hj hplan hdb, List.filterMap_flatMap]
  refine congrArg (fun k => List.flatMap k _) (funext fun row => ?_)
  rw [List.filterMap_map]
  -- every frame of the row goes by its table, and the order by the end of the chain
  rw [List.filterMap_congr (g := fun trail =>
    some (row, [db.field (trail.getLastD (some row)) order.path.field])), List.filterMap_eq_map']
  intro trail htrail
  have hend := OrderPath.lookup_chainEnd hfollows lookup_first (vacant_root hj hplan joins row)
    htrail
  have hterm : ((p.query ⟨.after .forExists filters, .after .forJoins joins⟩).orderBy.map
      fun term => db.value
        ([(p.entity.table, some row)] ++ labelled (.after .forJoins joins) trail) term.column) =
        [db.field (trail.getLastD (some row)) order.path.field] := by
    simp only [Plan.query, Plan.orderTerms, hls, Option.map_some, Option.toList_some,
      List.map_cons, List.map_nil]
    exact congrArg (fun c => [c]) (Database.value_eq_field hend)
  have hroot : Dict.lookup p.entity.table
      ([(p.entity.table, some row)] ++ labelled (.after .forJoins joins) trail) =
        some (some row) := lookup_first
  simp only [Function.comp_apply, hterm]
  exact congrArg (fun r => Option.map _ (Option.join r)) hroot

/-- **Orders keep the rows.** A request that compiles with an order compiles without it, and over
every database in which a null equals nothing, the ordered query finds the same rows. It finds each
of them once for every trail of the path, and so once only where each relation leads to one row at
most; and it orders them by the field of the last row of the trail. -/
theorem results_of_ordered (he : s.catalog.Avoids existsStem) (hj : s.catalog.Avoids joinStem)
    {request : SearchRequest} {q : Select} (h : s.compile request (some order) = .ok q) :
    ∃ (item : SearchItem) (e : Entity) (q₀ : Select), request.items.getLast? = some item ∧
      s.catalog.resolve? (item.key?.getD "") = some e ∧ s.compile request none = .ok q₀ ∧
      q.source = ⟨e.table, none⟩ ∧ q₀.source = ⟨e.table, none⟩ ∧
      ∀ db : Database, db.NullsApart →
        (∀ row, row ∈ q.selected db ↔ row ∈ q₀.selected db) ∧
        q.results db = (q₀.selected db).flatMap (fun row =>
          (trails db s.catalog order.path.relations e (some row)).map fun trail =>
            (row, [db.field (trail.getLastD (some row)) order.path.field])) ∧
        ((∀ row ∈ q₀.selected db, SingleValued db s.catalog order.path.relations e row) →
          q.selected db = q₀.selected db) := by
  obtain ⟨index, item, p, filters, joins, joins', hlast, hplan, rfl, hnone⟩ :=
    compile_none_of_compile h
  obtain ⟨ls, -, hfollows⟩ := order_of_plan hplan
  refine ⟨item, p.entity, _, hlast, resolve?_of_entityOf (plan_cases hplan).1, hnone, rfl, rfl,
    fun db hdb => ?_⟩
  have hresults := results_of_plan he hj hplan hdb filters joins joins'
  refine ⟨fun row => ?_, hresults, fun hsingle => ?_⟩
  · simp only [Select.selected, hresults, List.map_flatMap, List.map_map, Function.comp_def,
      List.mem_flatMap, List.mem_map]
    constructor
    · rintro ⟨row', hrow', trail, -, rfl⟩
      exact hrow'
    · intro hrow
      obtain ⟨trail, htrail⟩ := List.exists_mem_of_ne_nil _ (trails_ne_nil hfollows (some row))
      exact ⟨row, hrow, trail, htrail, rfl⟩
  · rw [Select.selected, hresults, List.map_flatMap]
    simp only [List.map_map, Function.comp_def, List.map_const']
    calc (Select.selected db _).flatMap (fun row => List.replicate
            (trails db s.catalog order.path.relations p.entity (some row)).length row)
        = (Select.selected db _).flatMap (fun row => [row]) := by
          refine List.flatMap_congr fun row hrow => ?_
          rw [length_trails_of_singleValued hfollows (hsingle row hrow)]
          rfl
      _ = Select.selected db _ := List.flatMap_singleton' _

end Searcher

/-! ### A small database -/

namespace Blog

/-- Three users, each of them by a number and the number of the manager, who need not be there. -/
def staff : Database where
  Row := Nat × Option Nat
  Cell := Option Nat
  rows table := if table = "users" then [(1, none), (2, some 1), (3, some 2)] else []
  cell row column := if column = "manager_id" then row.2 else some row.1
  null := none
  compares _ _ _ := true
  isMember _ _ _ := true
  relates _ c c' := c.isSome && c == c'

/-- In the database a null equals nothing. -/
theorem staff_nullsApart : staff.NullsApart where
  left _ := rfl
  right c := by cases c <;> rfl

end Blog

/-- The theorem at an order by the number of the manager of the manager, whom only one of three
users has: the path leads from the table that is searched to that table, twice. -/
theorem Searcher.results_of_ordered_blog :
    ∃ q, Blog.searcher.compile ⟨[Blog.search []]⟩ (some (.ofText "manager.manager.id" .asc)) =
        .ok q ∧
      q.results Blog.staff =
        [((1, none), [none]), ((2, some 1), [none]), ((3, some 2), [some 1])] := by
  have hcompile : ∃ q, Blog.searcher.compile ⟨[Blog.search []]⟩
      (some (.ofText "manager.manager.id" .asc)) = .ok q := ⟨_, rfl⟩
  obtain ⟨q, hq⟩ := hcompile
  obtain ⟨item, e, q₀, hitem, he, hq₀, -, -, hrows⟩ :=
    Searcher.results_of_ordered (Blog.avoids (Or.inl rfl)) (Blog.avoids (Or.inr rfl)) hq
  obtain rfl := Option.some.inj hitem
  obtain rfl := Option.some.inj he
  obtain rfl := Except.ok.inj hq₀
  exact ⟨q, hq, (hrows Blog.staff Blog.staff_nullsApart).2.1⟩

end DottedQuery
