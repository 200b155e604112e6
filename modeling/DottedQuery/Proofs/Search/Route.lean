import DottedQuery.Search.Filter

/-!
# Routes of filters

`DottedQuery.Filter.walk` does two things in one go: it resolves a path against the catalog, and
it writes the nested sub-queries, numbering their aliases as it goes. This file takes the two
apart. A path is resolved to its **route** (`DottedQuery.Filter.route`): the relations it
follows, each with the entity it leads to, and whether the comparison at the end is made. No
alias occurs in a route. From the route alone, `DottedQuery.Filter.Clause.predicate?` writes what
is left of the criterion, for any supply of aliases.

That the walk is the one after the other is `DottedQuery.Filter.walk_eq`. It is what lets two
compilations with different supplies, different policies or different protected fields be
compared: they are compared at their routes.

A plain criterion fits in as well: its route is empty and its comparison is made on the root.
-/

namespace DottedQuery

/-! ### Supplies of aliases -/

namespace AliasSupply

/-- The supply after a number of aliases are taken. -/
def after (a : AliasSupply) (k : Nat) : AliasSupply := { a with next := a.next + k }

@[simp] theorem after_zero (a : AliasSupply) : a.after 0 = a := rfl

@[simp] theorem next_taken (a : AliasSupply) : a.taken.next = a.next + 1 := rfl

theorem after_after (a : AliasSupply) (j k : Nat) : (a.after j).after k = a.after (j + k) := by
  simp only [after, Nat.add_assoc]

theorem after_taken (a : AliasSupply) (k : Nat) : a.taken.after k = a.after (k + 1) := by
  simp only [after, taken, Nat.add_assoc, Nat.add_comm 1 k]

end AliasSupply

/-- What is made of a result is a result, and comes from one. -/
theorem map_eq_ok_iff {ε α β : Type} {f : α → β} {x : Except ε α} {b : β} :
    x.map f = .ok b ↔ ∃ a, x = .ok a ∧ f a = b := by
  rcases x with fault | a <;> simp [Except.map]

/-! ### Adding what may not be there -/

namespace Select

/-- Adds a condition with the given combinator, if there is a predicate for it. -/
def addPredicate? (q : Select) (c : Combinator) : Option Predicate → Select
  | none => q
  | some p => q.addCondition ⟨c, p⟩

@[simp] theorem addPredicate?_none (q : Select) (c : Combinator) : q.addPredicate? c none = q := rfl

@[simp] theorem addPredicate?_some (q : Select) (c : Combinator) (p : Predicate) :
    q.addPredicate? c (some p) = q.addCondition ⟨c, p⟩ := rfl

end Select

namespace Filter

/-! ### The route of a path -/

/-- A relation that a path follows: the entity that declares it, the entity it leads to, and the
sub-query of the related rows on the names of the tables. -/
structure Step where
  /-- The entity that declares the relation. -/
  parent : Entity
  /-- The relation. -/
  relation : Relation
  /-- The entity it leads to. -/
  related : Entity
  /-- The related rows. -/
  rows : Select
  /-- They are the rows of the relation. -/
  rows_eq : relation.existsQuery parent.table related.table = .ok rows

/-- The sub-query of a step with its table under an alias, where `qualifier` is what the table of
the parent goes by in the query around. -/
def Step.level (st : Step) (qualifier label : String) : Select :=
  Repointing.select ⟨st.related.table, label, some (st.parent.table, qualifier)⟩
    (st.rows.aliased label)

/-- Whether the comparison with a field is made on an entity that a path has led to. -/
def arrive (policy : HiddenFieldPolicy) (field : String) (e : Entity) : Except SearchError Bool :=
  if e.isHidden field then
    match policy with
    | .drop => .ok false
    | .deny => .error (.denied e.name field)
  else .ok true

/-- **The route of a path** from an entity: its steps up to the first relation that filters may
not follow, and whether the comparison at the end is made. -/
def route (catalog : Catalog) (policy : HiddenFieldPolicy) (field : String) :
    List String → Entity → Except SearchError (List Step × Bool)
  | [], e => (arrive policy field e).map ([], ·)
  | name :: rest, e =>
    match e.relation? name with
    | none => .error (.unknownRelation e.name name)
    | some relation =>
      if relation.isSearchable then
        match catalog.entity? relation.related with
        | none => .error (.unknownEntity relation.related)
        | some related =>
          match h : relation.existsQuery e.table related.table with
          | .error fault => .error fault
          | .ok rows =>
            (route catalog policy field rest related).map fun r =>
              (⟨e, relation, related, rows, h⟩ :: r.1, r.2)
      else .ok ([], false)

/-- A comparison at the end of a path is made unless its field is hidden there. -/
theorem arrive_eq_ok {policy : HiddenFieldPolicy} {field : String} {e : Entity} {b : Bool}
    (h : arrive policy field e = .ok b) : b = !e.isHidden field := by
  unfold arrive at h
  split at h
  · next hhidden =>
    rcases policy with _ | _
    · simpa [hhidden] using (Except.ok.inj h).symm
    · simp at h
  · next hshown => simpa [hshown] using (Except.ok.inj h).symm

/-! ### What a route is written as -/

/-- What is left of a criterion once its path is resolved: the steps to follow, and the
comparison at the end of them, if it is made. -/
structure Clause where
  /-- The relations to follow. -/
  steps : List Step
  /-- The comparison at the end. -/
  leaf : Option Leaf

namespace Clause

/-- The comparison of a leaf with the table that goes by the given name. -/
def test (qualifier : String) (leaf : Leaf) : Predicate :=
  .forOperator (.named qualifier leaf.field) leaf.op leaf.value

/-- The predicate for steps that are still to be followed from a table that goes by `qualifier`:
one `exists` for every step, each inside the one before it, and the comparison innermost. -/
def nested (leaf : Option Leaf) : List Step → String → AliasSupply → Option Predicate
  | [], qualifier, _ => leaf.map (test qualifier)
  | st :: steps, qualifier, supply =>
    some (.exists ((st.level qualifier supply.current).addPredicate? .and
      (nested leaf steps supply.current supply.taken)))

/-- **The predicate of a clause**, unless nothing is left of the criterion. -/
def predicate? (c : Clause) (qualifier : String) (supply : AliasSupply) : Option Predicate :=
  nested c.leaf c.steps qualifier supply

/-- The clause of a route. -/
def ofRoute (leaf : Leaf) (r : List Step × Bool) : Clause :=
  ⟨r.1, if r.2 then some leaf else none⟩

end Clause

variable {catalog : Catalog} {policy : HiddenFieldPolicy} {leaf : Leaf}

/-! ### One relation of a route -/

section Hop

variable {field name : String} {rest : List String} {e related : Entity} {relation : Relation}

/-- At the end of a path nothing is followed any more. -/
theorem route_nil {r : List Step × Bool} (h : route catalog policy field [] e = .ok r) :
    r = ([], !e.isHidden field) := by
  rw [route, map_eq_ok_iff] at h
  obtain ⟨b, hb, rfl⟩ := h
  rw [arrive_eq_ok hb]

theorem route_of_unknown (hrel : e.relation? name = none) :
    route catalog policy field (name :: rest) e = .error (.unknownRelation e.name name) := by
  simp only [route, hrel]

theorem route_of_cut (hrel : e.relation? name = some relation)
    (hs : relation.isSearchable = false) :
    route catalog policy field (name :: rest) e = .ok ([], false) := by
  simp only [route, hrel, hs, Bool.false_eq_true, if_false]

theorem route_of_dangling (hrel : e.relation? name = some relation)
    (hs : relation.isSearchable = true) (hent : catalog.entity? relation.related = none) :
    route catalog policy field (name :: rest) e = .error (.unknownEntity relation.related) := by
  simp only [route, hrel, hs, if_true, hent]

theorem route_of_fault {fault : SearchError} (hrel : e.relation? name = some relation)
    (hs : relation.isSearchable = true) (hent : catalog.entity? relation.related = some related)
    (hrows : relation.existsQuery e.table related.table = .error fault) :
    route catalog policy field (name :: rest) e = .error fault := by
  simp only [route, hrel, hs, if_true, hent]
  split
  · next f hf => exact congrArg Except.error (Except.error.inj (hf.symm.trans hrows))
  · next rows hf => simp [hrows] at hf

/-- A relation that can be followed is the first step of the route. -/
theorem route_of_step {rows : Select} (hrel : e.relation? name = some relation)
    (hs : relation.isSearchable = true) (hent : catalog.entity? relation.related = some related)
    (hrows : relation.existsQuery e.table related.table = .ok rows) :
    route catalog policy field (name :: rest) e =
      (route catalog policy field rest related).map fun r =>
        (⟨e, relation, related, rows, hrows⟩ :: r.1, r.2) := by
  simp only [route, hrel, hs, if_true, hent]
  split
  · next f hf => simp [hrows] at hf
  · next rows' hf =>
    obtain rfl : rows = rows' := Except.ok.inj (hrows.symm.trans hf)
    rfl

/-- **What one relation contributes to a route**: either filters may not follow it and the route
ends, or it is the first step and the route goes on from the entity it leads to. -/
theorem route_cons_cases {r : List Step × Bool}
    (h : route catalog policy field (name :: rest) e = .ok r) :
    (∃ relation, e.relation? name = some relation ∧ relation.isSearchable = false ∧
      r = ([], false)) ∨
    ∃ (st : Step) (r' : List Step × Bool), st.parent = e ∧ e.relation? name = some st.relation ∧
      st.relation.isSearchable = true ∧ catalog.entity? st.relation.related = some st.related ∧
      route catalog policy field rest st.related = .ok r' ∧ r = (st :: r'.1, r'.2) := by
  cases hrel : e.relation? name with
  | none => simp [route_of_unknown hrel] at h
  | some relation =>
    cases hs : relation.isSearchable with
    | false =>
      rw [route_of_cut hrel hs] at h
      exact Or.inl ⟨relation, rfl, hs, (Except.ok.inj h).symm⟩
    | true =>
      cases hent : catalog.entity? relation.related with
      | none => simp [route_of_dangling hrel hs hent] at h
      | some related =>
        cases hrows : relation.existsQuery e.table related.table with
        | error fault => simp [route_of_fault hrel hs hent hrows] at h
        | ok rows =>
          rw [route_of_step hrel hs hent hrows, map_eq_ok_iff] at h
          obtain ⟨r', hr, rfl⟩ := h
          exact Or.inr ⟨⟨e, relation, related, rows, hrows⟩, r', rfl, rfl, hs, hent, hr, rfl⟩

/-- Where the first relation already ends the route, nothing is compared. -/
theorem snd_of_route_cons {b : Bool}
    (h : route catalog policy field (name :: rest) e = .ok ([], b)) : b = false := by
  rcases route_cons_cases h with ⟨relation, -, -, hr⟩ | ⟨st, r', -, -, -, -, -, hr⟩
  · exact (Prod.mk.inj hr).2
  · simp at hr

end Hop

/-! ### The walk follows the route -/

/-- Arriving and adding the leaf are the same thing. -/
theorem addLeaf_eq (related : Entity) (label : String) (sub : Select) :
    addLeaf policy related label leaf sub = (arrive policy leaf.field related).map fun b =>
      sub.addPredicate? .and ((if b then some leaf else none).map (Clause.test label)) := by
  unfold addLeaf arrive
  split
  · cases policy <;> rfl
  · rfl

/-- The level that the walk builds is the level of the step. -/
theorem level_eq (st : Step) (qualifier label : String) :
    level st.relation ⟨st.parent, qualifier⟩ st.related label =
      .ok (st.level qualifier label) := by
  simp only [level, st.rows_eq]
  rfl

/-- **The walk is its route, written out**: along a path that follows a relation it fails as the
route does, takes one alias for every step, and returns the sub-query that the route stands for.
-/
theorem walk_eq (leaf : Leaf) (path : List String) (hpath : path ≠ []) (e : Entity)
    (qualifier : String) (supply : AliasSupply) :
    walk catalog policy leaf path ⟨e, qualifier⟩ supply =
      (route catalog policy leaf.field path e).map fun r =>
        (((Clause.ofRoute leaf r).predicate? qualifier supply).bind Predicate.subquery?,
          supply.after r.1.length) := by
  induction path generalizing e qualifier supply with
  | nil => exact absurd rfl hpath
  | cons name rest ih =>
    unfold walk
    cases hrel : e.relation? name with
    | none => rw [route_of_unknown hrel]; rfl
    | some relation =>
      cases hs : relation.isSearchable with
      | false =>
        simp only [hs, Bool.false_eq_true, if_false, route_of_cut hrel hs]
        rfl
      | true =>
        cases hent : catalog.entity? relation.related with
        | none =>
          simp only [hs, if_true, hent, route_of_dangling hrel hs hent]
          rfl
        | some related =>
          cases hrows : relation.existsQuery e.table related.table with
          | error fault =>
            simp only [hs, if_true, hent, level, hrows, route_of_fault hrel hs hent hrows]
            rfl
          | ok rows =>
            have hlevel := level_eq ⟨e, relation, related, rows, hrows⟩ qualifier supply.current
            simp only [hs, if_true, hent, hlevel, route_of_step hrel hs hent hrows]
            cases rest with
            | nil =>
              -- the last relation of the path, whose level takes the leaf
              simp only [List.isEmpty_nil, if_true, addLeaf_eq, route]
              cases arrive policy leaf.field related <;> rfl
            | cons name' rest' =>
              simp only [List.isEmpty_cons, Bool.false_eq_true, if_false, ih (by simp)]
              cases hr : route catalog policy leaf.field (name' :: rest') related with
              | error fault => rfl
              | ok r =>
                obtain ⟨steps, b⟩ := r
                cases steps with
                | nil =>
                  -- the path is cut right behind this level, so there is no leaf either
                  obtain rfl := snd_of_route_cons hr
                  rfl
                | cons st steps =>
                  simp only [Except.map, Clause.predicate?, Clause.ofRoute, List.length_cons,
                    AliasSupply.after_taken]
                  rfl

end Filter

end DottedQuery
