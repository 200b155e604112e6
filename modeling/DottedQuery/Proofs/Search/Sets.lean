import DottedQuery.Proofs.Query.Placeholders
import DottedQuery.Proofs.Search.Values

/-!
# Sets written as texts

Behind a set operator a value stands for its members: those of a list, or the parts of a text
between commas. So a list of texts that have no commas can be written as one text, with commas
between them (`DottedQuery.Criterion.Joins`), and nothing comes of it: the two requests compile to
one query or fail with one error (`DottedQuery.Searcher.compile_joined_sets`). The list has to have
a member, for the text that is left when there is none has one part, which is empty.

Both requests are brought to a third, in which every set is listed (`DottedQuery.Value.listed`).
What is listed has the members that it had, and the predicate of a comparison with a set holds
members and nothing else; so plans are written alike, listed or not
(`DottedQuery.Plan.query_listed`).
-/

namespace DottedQuery

open DottedQuery.Filter (Clause Leaf Step)

/-! ### Listing sets -/

/-- A value behind an operator, with the members of a set in a list. -/
def Value.listed (op : Option Operator) (v : Value) : Value :=
  if op.any Operator.isSet then .array v.members else v

namespace Filter

namespace Clause

/-- A comparison does not see whether its set is listed. -/
theorem test_listed (qualifier : String) (leaf : Leaf) :
    test qualifier (leaf.mapValue Value.listed) = test qualifier leaf := by
  obtain ⟨field, op, v⟩ := leaf
  simp only [test, Leaf.mapValue, Value.listed, Option.any_some, Predicate.forOperator]
  rcases op.isSet with _ | _ <;> rfl

/-- So it is not seen where levels are nested. -/
theorem nested_listed (leaf : Option Leaf) (steps : List Step) (qualifier : String)
    (supply : AliasSupply) :
    nested (leaf.map (Leaf.mapValue Value.listed)) steps qualifier supply =
      nested leaf steps qualifier supply := by
  induction steps generalizing qualifier supply with
  | nil =>
    rcases leaf with _ | leaf
    · rfl
    · exact congrArg some (test_listed qualifier leaf)
  | cons st steps ih => rw [nested, nested, ih]

end Clause

end Filter

namespace Plan

theorem conditions_listed (table : String) (cs : List (Combinator × Clause))
    (supply : AliasSupply) :
    conditions table (cs.map fun c => (c.1, c.2.mapValue Value.listed)) supply =
      conditions table cs supply := by
  induction cs generalizing supply with
  | nil => rfl
  | cons c cs ih =>
    have hpredicate : (c.2.mapValue Value.listed).predicate? table supply =
        c.2.predicate? table supply := Clause.nested_listed c.2.leaf c.2.steps table supply
    have hsteps : (c.2.mapValue Value.listed).steps = c.2.steps := rfl
    rw [List.map_cons, conditions, conditions, hpredicate, hsteps, ih]

/-- **A plan is written alike whether its sets are listed or not.** -/
theorem query_listed (p : Plan) (supplies : Searcher.Supplies) :
    (p.mapValues Value.listed).query supplies = p.query supplies :=
  congrArg (Select.mk _ _ _ · _) (conditions_listed p.entity.table p.clauses supplies.filters)

end Plan

/-- A request compiles alike whether its sets are listed or not. -/
theorem Searcher.compile_listed (s : Searcher) (request : SearchRequest)
    (order : Option OrderPath) :
    s.compile (request.mapValues Value.listed) order = s.compile request order := by
  have hseen : (s.compile (request.mapValues Value.listed) order).map id =
      (s.compile request order).map id :=
    s.map_compile_mapValues Value.listed (fun p supplies => p.query_listed supplies) request order
  have hmap : ∀ x : Except SearchError Select, x.map id = x := by
    rintro (fault | q) <;> rfl
  rwa [hmap, hmap] at hseen

/-! ### Joining sets -/

/-- **A criterion with its set joined**: behind a set operator, a list of one or more texts without
commas gives way to one text, in which commas stand between them. A criterion may also be left as
it is. -/
inductive Criterion.Joins : Criterion → Criterion → Prop
  /-- The criterion is left as it is. -/
  | keep (c : Criterion) : Joins c c
  /-- Its set is joined. -/
  | join {c : Criterion} {op : Operator} {parts : List String} (operator : c.operator? = some op)
      (isSet : op.isSet = true) (value : c.value = some (.array (parts.map .string)))
      (nonempty : parts ≠ []) (whole : ∀ part ∈ parts, ',' ∉ part.toList) :
      Joins c { c with value := some (.string (",".intercalate parts)) }

/-- A request with some of its sets joined. -/
def SearchRequest.Joins (r r' : SearchRequest) : Prop :=
  List.Forall₂ (fun i i' : SearchItem => i'.entity = i.entity ∧
    List.Forall₂ Criterion.Joins i.criteriaList i'.criteriaList) r.items r'.items

/-- The members of texts that are joined are these texts. -/
theorem Value.members_joined {parts : List String} (hne : parts ≠ [])
    (h : ∀ part ∈ parts, ',' ∉ part.toList) :
    (Value.string (",".intercalate parts)).members = parts.map .string :=
  congrArg (List.map Value.string) (Text.split_intercalate hne h)

/-- **A set that is joined is listed as before.** -/
theorem Criterion.Joins.listed_eq {c c' : Criterion} (h : c.Joins c') :
    c.mapValue Value.listed = c'.mapValue Value.listed := by
  rcases h with _ | @⟨op, parts, hop, hset, hvalue, hne, hwhole⟩
  · rfl
  · -- both values are listed, and they have the same members
    have hlisted : ∀ v : Value, Value.listed c.operator? v = .array v.members := by
      intro v
      rw [Value.listed, hop, Option.any_some, if_pos hset]
    have hop' : Criterion.operator? { c with value := some (.string (",".intercalate parts)) } =
        c.operator? := rfl
    simp only [mapValue, hop', hvalue, Option.map_some, hlisted, Value.members_joined hne hwhole]
    rfl

/-! ### The members of a text -/

/-- **The members of a text are its parts between commas.** No member has a comma, with commas
between them they are the text, and there is one more than there are commas. -/
theorem Value.members_text (text : String) :
    ∃ parts : List String, (Value.string text).members = parts.map .string ∧
      (∀ part ∈ parts, ',' ∉ part.toList) ∧ ",".intercalate parts = text ∧
      parts.length = text.toList.count ',' + 1 :=
  ⟨Text.split ',' text, rfl, fun _ => Text.not_mem_of_mem_split, Text.intercalate_split ',' text,
    Text.length_split ',' text⟩

/-- The comparison with a set has a placeholder for every member. -/
theorem Predicate.placeholders_set (column : Column) {op : Operator} (hop : op.isSet = true)
    (value : Value) :
    Text.placeholders
        (String.join ((forOperator column op value).pieces.map Piece.placeholder)) =
      value.members.length := by
  rw [(forOperator column op value).carry.placeholders, forOperator, if_pos hop]
  simp [valueNodes, ownValues]

/-- **Lists and texts with commas are interchangeable as sets.** A request in which lists of texts
without commas are written as one text each compiles as before: to the same query, or with the same
error. And every text is good for a set: its members have no commas and are the text again with
commas between them, so there is one placeholder more than there are commas. -/
theorem Searcher.compile_joined_sets (s : Searcher) :
    (∀ (request request' : SearchRequest) (order : Option OrderPath), request.Joins request' →
      s.compile request' order = s.compile request order) ∧
    ∀ text : String,
      (∃ parts : List String, (Value.string text).members = parts.map .string ∧
        (∀ part ∈ parts, ',' ∉ part.toList) ∧ ",".intercalate parts = text) ∧
      ∀ (column : Column) (op : Operator), op.isSet = true →
        Text.placeholders (String.join
            ((Predicate.forOperator column op (.string text)).pieces.map Piece.placeholder)) =
          text.toList.count ',' + 1 := by
  refine ⟨fun request request' order h => ?_, fun text => ?_⟩
  · have hlisted : request.mapValues Value.listed = request'.mapValues Value.listed :=
      SearchRequest.mapValues_eq Value.listed (fun _ _ => Criterion.Joins.listed_eq) h
    rw [← s.compile_listed request' order, ← hlisted, s.compile_listed request order]
  · obtain ⟨parts, hmembers, hwhole, htext, hcount⟩ := Value.members_text text
    refine ⟨⟨parts, hmembers, hwhole, htext⟩, fun column op hop => ?_⟩
    rw [Predicate.placeholders_set column hop, hmembers, List.length_map, hcount]

/-- The theorem at a search for users by the names of their roles and by those of their managers,
where texts may be empty. -/
theorem Searcher.compile_joined_sets_blog :
    let listed : SearchItem := Blog.search
      [Blog.criterion "roles.name" "in" (.array [.string "admin", .string "", .string " root"]),
        Blog.criterion "manager.name" "NOT IN" (.array [.string "Ann"]),
        Blog.criterion "name" "=" (.array [.string "Bob"])]
    let joined : SearchItem := Blog.search
      [Blog.criterion "roles.name" "in" (.string "admin,, root"),
        Blog.criterion "manager.name" "NOT IN" (.string "Ann"),
        Blog.criterion "name" "=" (.array [.string "Bob"])]
    (SearchRequest.mk [listed]).Joins ⟨[joined]⟩ ∧
      Blog.searcher.compile ⟨[joined]⟩ none = Blog.searcher.compile ⟨[listed]⟩ none := by
  intro listed joined
  have hjoins : (SearchRequest.mk [listed]).Joins ⟨[joined]⟩ := by
    refine .cons ⟨rfl, .cons ?_ (.cons ?_ (.cons (.keep _) .nil))⟩ .nil
    · exact @Criterion.Joins.join _ .isIn ["admin", "", " root"] rfl rfl rfl (by simp) (by decide)
    · exact @Criterion.Joins.join _ .notIn ["Ann"] rfl rfl rfl (by simp) (by decide)
  exact ⟨hjoins, (Searcher.compile_joined_sets Blog.searcher).1 _ _ none hjoins⟩

end DottedQuery
