import DottedQuery.Proofs.Search.Values
import DottedQuery.Query.Render

/-!
# Values are bindings and nothing else

The values of criteria reach a statement as bindings only. Two requests that differ in the contents
of their values have statements with the same text
(`DottedQuery.Searcher.compile_text_of_sameButValues`), character for character, or fail with the
same error. All that can be seen of a value is whether it is there and, behind a set operator, how
many members it has, for that is the number of placeholders.

The comparison is made with the **bare** request, whose values are all taken out and `null` put in
their stead (`DottedQuery.SearchRequest.bare`). Taking values out and making a plan can be done in
either order (`DottedQuery.Searcher.plans_mapValues`), and the plan without values is written as the
same pieces up to what stands in the slots (`DottedQuery.Plan.form_query_blank`). So a request and
its bare one have the same text, and two requests that differ in values have one bare request.
-/

namespace DottedQuery

/-! ### Pieces without values -/

/-- A piece without the value in its slot. -/
def Piece.bare : Piece → Piece
  | slot _ => slot .null
  | p => p

namespace Piece

theorem placeholder_bare (p : Piece) : p.bare.placeholder = p.placeholder := by
  cases p <;> rfl

theorem isSome_value?_bare (p : Piece) : p.bare.value?.isSome = p.value?.isSome := by
  cases p <;> rfl

end Piece

/-- The pieces of a predicate, without values. -/
def Predicate.form (p : Predicate) : List Piece := p.pieces.map Piece.bare

/-- A condition in pieces without values. -/
def Condition.form (c : Condition) : Combinator × List Piece :=
  (c.combinator, c.pieces.map Piece.bare)

/-- The pieces of a query, without values. -/
def Select.form (q : Select) : List Piece := q.pieces.map Piece.bare

theorem Condition.form_mk (c : Combinator) (p : Predicate) :
    Condition.form ⟨c, p⟩ = (c, p.form) := by
  rw [form, pieces, Predicate.form]

section Forms

variable {cs cs' : List Condition}

theorem furtherPieces_form (h : cs.map Condition.form = cs'.map Condition.form) :
    (furtherPieces cs).map Piece.bare = (furtherPieces cs').map Piece.bare := by
  induction cs generalizing cs' with
  | nil =>
    obtain rfl : cs' = [] := by simpa using h.symm
    rfl
  | cons c cs ih =>
    cases cs' with
    | nil => simp at h
    | cons c' cs' =>
      obtain ⟨hc, hcs⟩ := List.cons.inj h
      obtain ⟨hcomb, hpieces⟩ := Prod.mk.inj hc
      simp only [furtherPieces, List.map_append, List.map_cons, hcomb, hpieces, ih hcs]

theorem wherePieces_form (h : cs.map Condition.form = cs'.map Condition.form) :
    (wherePieces cs).map Piece.bare = (wherePieces cs').map Piece.bare := by
  cases cs with
  | nil =>
    obtain rfl : cs' = [] := by simpa using h.symm
    rfl
  | cons c cs =>
    cases cs' with
    | nil => simp at h
    | cons c' cs' =>
      obtain ⟨hc, hcs⟩ := List.cons.inj h
      obtain ⟨-, hpieces⟩ := Prod.mk.inj hc
      simp only [wherePieces, List.map_append, List.map_cons, hpieces, furtherPieces_form hcs]

/-- Queries that differ in their conditions alone have the same form if the conditions do. -/
theorem Select.form_of_wheres (ps : List Projection) (source : Source) (js : List Join)
    (os : List OrderTerm) (h : cs.map Condition.form = cs'.map Condition.form) :
    Select.form ⟨ps, source, js, cs, os⟩ = Select.form ⟨ps, source, js, cs', os⟩ := by
  simp only [form, pieces, List.map_append, List.map_cons, wherePieces_form h]

end Forms

/-- **Queries of one form have one text**, and as many bindings as each other. -/
theorem Select.statement_of_form {q q' : Select} (h : q.form = q'.form) :
    q.statement.text = q'.statement.text ∧
      q.statement.bindings.length = q'.statement.bindings.length := by
  have htext : ∀ q : Select,
      q.statement.text = String.join (q.form.map Piece.placeholder) := by
    intro q
    simp only [statement, form, List.map_map]
    exact congrArg String.join (List.map_congr_left fun p _ => p.placeholder_bare.symm)
  have hlength : ∀ q : Select,
      q.statement.bindings.length = q.form.countP fun p => p.value?.isSome := by
    intro q
    simp only [statement, form, List.length_filterMap_eq_countP, List.countP_map]
    exact List.countP_congr fun p _ => by simp [p.isSome_value?_bare]
  exact ⟨by rw [htext, htext, h], by rw [hlength, hlength, h]⟩

namespace Predicate

/-- A membership has the same form with other members in its set, if there are as many. -/
theorem form_inSet_bare (c : Column) (negated : Bool) (vs : List Value) :
    (inSet c negated (vs.map fun _ => .null)).form = (inSet c negated vs).form := by
  have hslots : ∀ vs : List Value, (Piece.separated ", " (vs.map fun v => [Piece.slot v])).map
      Piece.bare = Piece.separated ", " (vs.map fun _ => [Piece.slot .null]) := by
    intro vs
    induction vs with
    | nil => rfl
    | cons v vs ih =>
      cases vs with
      | nil => rfl
      | cons v' vs =>
        simp only [List.map_cons, Piece.separated, List.map_append] at ih ⊢
        rw [ih]
        rfl
  simp only [form, pieces, List.isEmpty_map]
  split
  · rfl
  · simp only [setPieces, List.map_append, List.map_cons, hslots]
    rw [List.map_map]
    rfl

theorem form_exists (sub : Select) :
    (Predicate.exists sub).form = .text "exists (" :: sub.form ++ [.text ")"] := by
  simp only [form, pieces, Select.form, List.map_append, List.map_cons]
  rfl

end Predicate

/-- The conditions of predicates of one form have one form. -/
theorem Condition.form_of_predicates (c : Combinator) {p p' : Option Predicate}
    (h : p.map Predicate.form = p'.map Predicate.form) :
    (p.map (Condition.mk c)).toList.map form = (p'.map (Condition.mk c)).toList.map form := by
  cases p with
  | none =>
    obtain rfl : p' = none := by simpa using h.symm
    rfl
  | some p =>
    obtain ⟨p', rfl, hp⟩ := Option.map_eq_some_iff.mp h.symm
    simp only [Option.map_some, Option.toList_some, List.map_cons, List.map_nil, form_mk, hp]

/-- Queries that take one more condition have the same form if the condition does. -/
theorem Select.form_addPredicate? (q : Select) (c : Combinator) {p p' : Option Predicate}
    (h : p.map Predicate.form = p'.map Predicate.form) :
    (q.addPredicate? c p).form = (q.addPredicate? c p').form := by
  obtain ⟨ps, source, js, ws, os⟩ := q
  have hadd : ∀ p : Option Predicate, addPredicate? ⟨ps, source, js, ws, os⟩ c p =
      ⟨ps, source, js, ws ++ (p.map (Condition.mk c)).toList, os⟩ := by
    intro p
    cases p <;> simp [addPredicate?, addCondition]
  rw [hadd, hadd]
  refine form_of_wheres _ _ _ _ ?_
  rw [List.map_append, List.map_append, Condition.form_of_predicates c h]

/-! ### Requests without values -/

/-- A value with its contents taken out: a set operator still finds as many members. -/
def Value.bare (op : Operator) (v : Value) : Value :=
  if op.isSet then .array (v.members.map fun _ => .null) else .null

/-- What is left of a value when its contents are taken out, behind the operator that the word of a
criterion stands for. -/
def Value.blank (op : Option Operator) (v : Value) : Value := op.elim .null v.bare

/-- A request without the contents of its values. -/
def SearchRequest.bare (r : SearchRequest) : SearchRequest := r.mapValues Value.blank

/-! ### Plans without values -/

namespace Filter

namespace Clause

/-- A comparison has the same form with its value taken out. -/
theorem form_test_blank (qualifier : String) (leaf : Leaf) :
    (test qualifier (leaf.mapValue Value.blank)).form = (test qualifier leaf).form := by
  obtain ⟨field, op, v⟩ := leaf
  simp only [test, Leaf.mapValue, Value.blank, Option.elim_some, Value.bare,
    Predicate.forOperator]
  cases op.isSet with
  | false => rfl
  | true => exact Predicate.form_inSet_bare _ _ v.members

/-- **Nested levels have the same form with the value at the end taken out.** -/
theorem form_nested_blank (leaf : Option Leaf) (steps : List Step) (qualifier : String)
    (supply : AliasSupply) :
    (nested (leaf.map (Leaf.mapValue Value.blank)) steps qualifier supply).map Predicate.form =
      (nested leaf steps qualifier supply).map Predicate.form := by
  induction steps generalizing qualifier supply with
  | nil =>
    cases leaf with
    | none => rfl
    | some leaf => exact congrArg some (form_test_blank qualifier leaf)
  | cons st steps ih =>
    have hlevel := Select.form_addPredicate? (st.level qualifier supply.current) .and
      (ih supply.current supply.taken)
    simp only [nested, Option.map_some, Predicate.form_exists, hlevel]

end Clause

end Filter

namespace Plan

theorem form_conditions_blank (table : String) (cs : List (Combinator × Filter.Clause))
    (supply : AliasSupply) :
    (conditions table (cs.map fun c => (c.1, c.2.mapValue Value.blank)) supply).map
        Condition.form =
      (conditions table cs supply).map Condition.form := by
  induction cs generalizing supply with
  | nil => rfl
  | cons c cs ih =>
    have hhead : (((c.2.mapValue Value.blank).predicate? table supply).map
        (Condition.mk c.1)).toList.map Condition.form =
          ((c.2.predicate? table supply).map (Condition.mk c.1)).toList.map Condition.form :=
      Condition.form_of_predicates c.1
        (Filter.Clause.form_nested_blank c.2.leaf c.2.steps table supply)
    have hsteps : (c.2.mapValue Value.blank).steps = c.2.steps := rfl
    simp only [List.map_cons, conditions, List.map_append, hhead, hsteps, ih]

/-- **A plan and the one without values are written alike.** -/
theorem form_query_blank (p : Plan) (s : Searcher.Supplies) :
    ((p.mapValues Value.blank).query s).form = (p.query s).form :=
  Select.form_of_wheres _ _ _ _ (form_conditions_blank p.entity.table p.clauses s.filters)

end Plan

/-- **A request and its bare one compile alike**: to queries of one form, or with one error. -/
theorem Searcher.compile_bare (s : Searcher) (request : SearchRequest) (order : Option OrderPath) :
    (s.compile request.bare order).map Select.form =
      (s.compile request order).map Select.form :=
  s.map_compile_mapValues Value.blank (fun p supplies => p.form_query_blank supplies) request order

/-! ### Requests that differ in values -/

/-- **Two criteria that differ at most in the contents of their values**: a value is there in both
or in neither, and for a set operator both have as many members. -/
structure Criterion.SameButValue (c c' : Criterion) : Prop where
  /-- The path is the same. -/
  field : c'.field = c.field
  /-- The operator is the same. -/
  op : c'.op = c.op
  /-- The way of combining is the same. -/
  or : c'.or = c.or
  /-- The value is there in both or in neither. -/
  present : c'.value.isSome = c.value.isSome
  /-- For a set operator, both values have as many members. -/
  members : ∀ o, c.operator? = some o → o.isSet = true → ∀ v v', c.value = some v →
    c'.value = some v' → v.members.length = v'.members.length

/-- Two items that differ at most in the contents of values. -/
def SearchItem.SameButValues (i i' : SearchItem) : Prop :=
  i'.entity = i.entity ∧ List.Forall₂ Criterion.SameButValue i.criteriaList i'.criteriaList

/-- **Two requests that differ at most in the contents of values.** -/
def SearchRequest.SameButValues (r r' : SearchRequest) : Prop :=
  List.Forall₂ SearchItem.SameButValues r.items r'.items

/-- Criteria that differ in values are one when the values are taken out. -/
theorem Criterion.SameButValue.blank_eq {c c' : Criterion} (h : c.SameButValue c') :
    c.mapValue Value.blank = c'.mapValue Value.blank := by
  have hop : c'.operator? = c.operator? := by simp only [operator?, h.op]
  have hvalue : c.value.map (Value.blank c.operator?) =
      c'.value.map (Value.blank c.operator?) := by
    cases hv : c.value with
    | none =>
      have hnone : c'.value = none := by simpa [hv] using h.present
      rw [hnone]
    | some v =>
      obtain ⟨v', hv'⟩ := Option.isSome_iff_exists.mp (h.present.trans (by rw [hv]; rfl))
      rw [hv']
      refine congrArg some ?_
      cases ho : c.operator? with
      | none => rfl
      | some o =>
        simp only [Value.blank, Option.elim_some, Value.bare]
        split
        · next hset => rw [List.map_const', List.map_const', h.members o ho hset v v' hv hv']
        · rfl
  simp only [mapValue, hop, h.field, h.op, h.or, hvalue]

/-- Requests that differ in values are one when the values are taken out. -/
theorem SearchRequest.SameButValues.bare_eq {r r' : SearchRequest} (h : r.SameButValues r') :
    r.bare = r'.bare :=
  SearchRequest.mapValues_eq Value.blank (fun _ _ hc => Criterion.SameButValue.blank_eq hc) h

/-- **Values never influence the text of a statement**: two requests that differ at most in the
contents of values, with as many members for every set operator, either compile to queries whose
statements have one text and equally many bindings, or fail with one error. -/
theorem Searcher.compile_text_of_sameButValues (s : Searcher) (order : Option OrderPath)
    {request request' : SearchRequest} (h : request.SameButValues request') :
    (∃ q q', s.compile request order = .ok q ∧ s.compile request' order = .ok q' ∧
      q.statement.text = q'.statement.text ∧
      q.statement.bindings.length = q'.statement.bindings.length) ∨
    ∃ e, s.compile request order = .error e ∧ s.compile request' order = .error e := by
  have hform : (s.compile request order).map Select.form =
      (s.compile request' order).map Select.form := by
    rw [← s.compile_bare request order, h.bare_eq, s.compile_bare request' order]
  cases hq : s.compile request order with
  | error e =>
    cases hq' : s.compile request' order with
    | error e' =>
      rw [hq, hq'] at hform
      exact Or.inr ⟨e, rfl, congrArg Except.error (Except.error.inj hform).symm⟩
    | ok q' => simp [hq, hq', Except.map] at hform
  | ok q =>
    cases hq' : s.compile request' order with
    | error e' => simp [hq, hq', Except.map] at hform
    | ok q' =>
      rw [hq, hq'] at hform
      exact Or.inl ⟨q, q', rfl, rfl, Select.statement_of_form (Except.ok.inj hform)⟩

/-- The theorem at two searches, one of which tries to write a statement of its own. -/
theorem Searcher.compile_text_of_crafted :
    let plain : SearchItem := Blog.search [Blog.criterion "name" "=" (.string "Ann"),
      Blog.criterion "posts.id" "in" (.string "1,2"),
      Blog.criterion "profile.ssn" "=" (.int 7)]
    let crafted : SearchItem := Blog.search [Blog.criterion "name" "=" (.string "' or 1 = 1 --"),
      Blog.criterion "posts.id" "in" (.array [.null, .string "?) or (1 = 1"]),
      Blog.criterion "profile.ssn" "=" (.array [])]
    (SearchRequest.mk [plain]).SameButValues ⟨[crafted]⟩ ∧
    ((∃ q q', Blog.searcher.compile ⟨[plain]⟩ none = .ok q ∧
      Blog.searcher.compile ⟨[crafted]⟩ none = .ok q' ∧
      q.statement.text = q'.statement.text ∧
      q.statement.bindings.length = q'.statement.bindings.length) ∨
    ∃ e, Blog.searcher.compile ⟨[plain]⟩ none = .error e ∧
      Blog.searcher.compile ⟨[crafted]⟩ none = .error e) := by
  intro plain crafted
  have hsame : (SearchRequest.mk [plain]).SameButValues ⟨[crafted]⟩ := by
    refine .cons ⟨rfl, .cons ?_ (.cons ?_ (.cons ?_ .nil))⟩ .nil
    all_goals
      refine ⟨rfl, rfl, rfl, rfl, fun o ho hset v v' hv hv' => ?_⟩
      obtain rfl := Option.some.inj hv
      obtain rfl := Option.some.inj hv'
    · obtain rfl : Operator.eq = o := Option.some.inj ho
      simp [Operator.isSet] at hset
    · rfl
    · obtain rfl : Operator.eq = o := Option.some.inj ho
      simp [Operator.isSet] at hset
  exact ⟨hsame, compile_text_of_sameButValues Blog.searcher none hsame⟩

end DottedQuery
