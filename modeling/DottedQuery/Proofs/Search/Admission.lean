import DottedQuery.Proofs.Search.Validated
import Mathlib.Tactic.ByContra

/-!
# Which orders are admitted

An order is held to the allow-lists of the entities that its path passes, and it never uses a
hidden field. This file says so without the walk along the path: what has to hold of a path at
each of its relations (`DottedQuery.OrderPath.Admitted`), what can be wrong with it there
(`DottedQuery.OrderPath.Fails`), and which of several things that are wrong is reported – the
first one, relation by relation, and at one relation in the order of
`DottedQuery.OrderPath.Check`.

Where a path leads (`DottedQuery.Catalog.Reaches`) is a matter of the declared relations alone, so
every check is stated of the entity that is reached, whether or not the checks before it hold.

* `DottedQuery.OrderPath.links_eq_error_iff` – the error is that of the first check that fails;
* `DottedQuery.Searcher.applyOrder_exact` – an order is applied exactly if it is admitted, fails
  with the first fault otherwise, and neither depends on the policy for hidden fields, on the
  criteria, or on which relations filters may follow.
-/

namespace DottedQuery

/-! ### Where relations lead -/

/-- **Relations lead from one entity to another**, each declared by the entity before it and
leading to an entity of the catalog. -/
inductive Catalog.Reaches (catalog : Catalog) : Entity → List String → Entity → Prop
  /-- No relation leads nowhere else. -/
  | here (e : Entity) : Reaches catalog e [] e
  /-- A relation leads to its related entity, and the others go on from there. -/
  | there {e related target : Entity} {name : String} {rest : List String} {relation : Relation} :
      e.relation? name = some relation → catalog.entity? relation.related = some related →
      Reaches catalog related rest target → Reaches catalog e (name :: rest) target

/-- The relations that paths find have the name that is looked for. -/
theorem Entity.name_of_relation? {e : Entity} {name : String} {r : Relation}
    (h : e.relation? name = some r) : r.name = name := by
  simpa using List.find?_some h

namespace Catalog.Reaches

variable {catalog : Catalog} {e related target : Entity} {name : String} {names : List String}
  {relation : Relation}

/-- Relations lead to one entity only. -/
theorem unique {target' : Entity} (h : catalog.Reaches e names target)
    (h' : catalog.Reaches e names target') : target = target' := by
  induction h with
  | here e =>
    cases h'
    rfl
  | there hrel hent _ ih =>
    cases h' with
    | there hrel' hent' hrest' =>
      obtain rfl := Option.some.inj (hrel.symm.trans hrel')
      obtain rfl := Option.some.inj (hent.symm.trans hent')
      exact ih hrest'

/-- Behind a relation that leads to an entity, the others lead on from there. -/
theorem cons_iff (hrel : e.relation? name = some relation)
    (hent : catalog.entity? relation.related = some related) :
    catalog.Reaches e (name :: names) target ↔ catalog.Reaches related names target := by
  constructor
  · intro h
    cases h with
    | there hrel' hent' hrest =>
      obtain rfl := Option.some.inj (hrel.symm.trans hrel')
      obtain rfl := Option.some.inj (hent.symm.trans hent')
      exact hrest
  · exact .there hrel hent

/-- Relations lead on by one more. -/
theorem concat (h : catalog.Reaches e names target) (hrel : target.relation? name = some relation)
    (hent : catalog.entity? relation.related = some related) :
    catalog.Reaches e (names ++ [name]) related := by
  induction h with
  | here e => exact .there hrel hent (.here related)
  | there hrel' hent' _ ih => exact .there hrel' hent' (ih hrel)

end Catalog.Reaches

namespace OrderPath

variable {catalog : Catalog} {field : String}

/-! ### What is asked of an order -/

/-- **An order is admitted**: every relation of its path is listed by the entity it is followed
from, leads to an entity and needs no pivot table; the list admits the field behind the last
one; and the field is not hidden where the path ends, which is the root if it follows no
relation. -/
structure Admitted (catalog : Catalog) (root : Entity) (order : OrderPath) : Prop where
  /-- The relations can be followed. -/
  hops : ∀ i name, order.path.relations[i]? = some name → ∃ e relation related,
    catalog.Reaches root (order.path.relations.take i) e ∧ e.allowed.allows name = true ∧
      e.relation? name = some relation ∧ catalog.entity? relation.related = some related ∧
      relation.kind ≠ .belongsToMany
  /-- The field is admitted behind the last of them. -/
  leaf : ∀ e name, order.path.relations.getLast? = some name →
    catalog.Reaches root order.path.relations.dropLast e →
      e.allowed.allowsLeaf name order.path.field = true
  /-- The field is not hidden. -/
  shown : ∀ e, catalog.Reaches root order.path.relations e → e.isHidden order.path.field = false

/-- The checks at a relation of an order, in the order in which they are made. -/
inductive Check where
  /-- The entity lists the relation. -/
  | listed : Check
  /-- The list admits the field behind it. -/
  | leafListed : Check
  /-- The entity declares the relation. -/
  | declared : Check
  /-- The relation leads to an entity. -/
  | defined : Check
  /-- The field is not hidden there. -/
  | leafShown : Check
  /-- The relation needs no pivot table. -/
  | joinable : Check
deriving DecidableEq, Repr

/-- The place of a check among the checks. -/
def Check.rank : Check → Nat
  | listed => 0
  | leafListed => 1
  | declared => 2
  | defined => 3
  | leafShown => 4
  | joinable => 5

/-- Checks have different places. -/
theorem Check.rank_inj {k k' : Check} (h : k.rank = k'.rank) : k = k' := by
  cases k <;> cases k' <;> first | rfl | simp [rank] at h

/-- **A check fails** at the relation `name` of an entity, with what is said about it; `last` says
that the field is asked for behind the relation. -/
inductive Fails (catalog : Catalog) (field : String) (e : Entity) (name : String) (last : Bool) :
    Check → SearchError → Prop
  /-- The entity does not list the relation. -/
  | listed : e.allowed.allows name = false →
      Fails catalog field e name last .listed (.denied e.name name)
  /-- The list does not admit the field behind it. -/
  | leafListed : last = true → e.allowed.allowsLeaf name field = false →
      Fails catalog field e name last .leafListed (.denied e.name (name ++ "." ++ field))
  /-- The entity does not declare the relation. -/
  | declared : e.relation? name = none →
      Fails catalog field e name last .declared (.unknownRelation e.name name)
  /-- The relation leads to no entity. -/
  | defined {relation : Relation} : e.relation? name = some relation →
      catalog.entity? relation.related = none →
      Fails catalog field e name last .defined (.unknownEntity relation.related)
  /-- The field is hidden there. -/
  | leafShown {relation : Relation} {related : Entity} : last = true →
      e.relation? name = some relation → catalog.entity? relation.related = some related →
      related.isHidden field = true →
      Fails catalog field e name last .leafShown (.denied related.name field)
  /-- The relation goes through a pivot table. -/
  | joinable {relation : Relation} : e.relation? name = some relation →
      relation.kind = .belongsToMany →
      Fails catalog field e name last .joinable (.unjoinable name .belongsToMany)

/-- A check fails at a position of the relations from an entity on. -/
def FailsAt (catalog : Catalog) (field : String) (root : Entity) (names : List String) (i : Nat)
    (k : Check) (fault : SearchError) : Prop :=
  ∃ e name, catalog.Reaches root (names.take i) e ∧ names[i]? = some name ∧
    Fails catalog field e name (i + 1 = names.length) k fault

/-- **The first check that fails** along relations: none fails at a relation before it, and none
that comes before it at the same relation. -/
def FirstFault (catalog : Catalog) (field : String) (root : Entity) (names : List String)
    (fault : SearchError) : Prop :=
  ∃ i k, FailsAt catalog field root names i k fault ∧
    ∀ j k' fault', FailsAt catalog field root names j k' fault' →
      i < j ∨ i = j ∧ k.rank ≤ k'.rank

/-- **What is wrong with an order**: the first check that fails along its relations, or, when it
follows none, that its field is hidden on the root. -/
def Refused (catalog : Catalog) (root : Entity) (order : OrderPath) (fault : SearchError) : Prop :=
  FirstFault catalog order.path.field root order.path.relations fault ∨
    order.path.relations = [] ∧ root.isHidden order.path.field = true ∧
      fault = .denied root.name order.path.field

/-! ### One relation -/

section Link

variable {e : Entity} {name : String} {last : Bool}

/-- A check fails with one fault only. -/
theorem Fails.unique {k : Check} {fault fault' : SearchError}
    (h : Fails catalog field e name last k fault) (h' : Fails catalog field e name last k fault') :
    fault = fault' := by
  cases h with
  | listed | leafListed | declared | joinable =>
    cases h'
    rfl
  | defined hrel =>
    cases h' with
    | defined hrel' => rw [Option.some.inj (hrel.symm.trans hrel')]
  | leafShown _ hrel hent =>
    cases h' with
    | leafShown _ hrel' hent' =>
      obtain rfl := Option.some.inj (hrel.symm.trans hrel')
      rw [Option.some.inj (hent.symm.trans hent')]

/-- **One relation is followed exactly if every check passes**, and otherwise the first check that
does not pass is reported. -/
theorem link_cases (catalog : Catalog) (field : String) (e : Entity) (name : String)
    (last : Bool) :
    (∃ l, link catalog field e name last = .ok l ∧ e.relation? name = some l.1 ∧
      catalog.entity? l.1.related = some l.2 ∧
      ∀ k fault, ¬Fails catalog field e name last k fault) ∨
    ∃ k fault, link catalog field e name last = .error fault ∧
      Fails catalog field e name last k fault ∧
      ∀ k' fault', Fails catalog field e name last k' fault' → k.rank ≤ k'.rank := by
  -- the checks in their order; at the first that fails, those before it are known to pass
  by_cases hlisted : e.allowed.allows name = false
  · refine Or.inr ⟨.listed, _, ?_, .listed hlisted, fun _ _ _ => Nat.zero_le _⟩
    simp [link, hop, hlisted]
  have hallows : (!e.allowed.allows name) = false := by simpa using hlisted
  by_cases hleaf : last = true ∧ e.allowed.allowsLeaf name field = false
  · refine Or.inr ⟨.leafListed, _, ?_, .leafListed hleaf.1 hleaf.2, fun k' fault' h' => ?_⟩
    · simp [link, hop, hlisted, hleaf]
    · cases h' <;> simp_all [Check.rank]
  have hadmits : (last && !e.allowed.allowsLeaf name field) = false := by simpa using hleaf
  rcases hrel : e.relation? name with _ | relation
  · refine Or.inr ⟨.declared, _, ?_, .declared hrel, fun k' fault' h' => ?_⟩
    · simp only [link, hop, hallows, hadmits, hrel, Bool.false_eq_true, if_false]
    · cases h' <;> simp_all [Check.rank]
  rcases hent : catalog.entity? relation.related with _ | related
  · refine Or.inr ⟨.defined, _, ?_, .defined hrel hent, fun k' fault' h' => ?_⟩
    · simp only [link, hop, hallows, hadmits, hrel, hent, Bool.false_eq_true, if_false]
    · cases h' <;> simp_all [Check.rank]
  by_cases hhidden : last = true ∧ related.isHidden field = true
  · refine Or.inr ⟨.leafShown, _, ?_, .leafShown hhidden.1 hrel hent hhidden.2,
      fun k' fault' h' => ?_⟩
    · have hhides : (last && related.isHidden field) = true := by simpa using hhidden
      simp only [link, hop, hallows, hadmits, hrel, hent, hhides, Bool.false_eq_true, if_false,
        if_true]
    · cases h' <;> simp_all [Check.rank]
  have hshown : (last && related.isHidden field) = false := by simpa using hhidden
  have hlink : link catalog field e name last =
      if relation.kind.isManyToMany then .error (.unjoinable relation.name relation.kind)
      else .ok (relation, related) := by
    simp only [link, hop, hallows, hadmits, hrel, hent, hshown, Bool.false_eq_true, if_false]
  by_cases hkind : relation.kind = .belongsToMany
  · refine Or.inr ⟨.joinable, _, ?_, .joinable hrel hkind, fun k' fault' h' => ?_⟩
    · rw [hlink, hkind, Entity.name_of_relation? hrel]
      rfl
    · cases h' <;> simp_all [Check.rank]
  · refine Or.inl ⟨(relation, related), ?_, rfl, hent, fun k fault h => ?_⟩
    · rw [hlink, if_neg]
      cases hk : relation.kind <;> simp_all [RelationKind.isManyToMany]
    · cases h <;> simp_all

/-- **What passing every check at a relation comes to.** -/
theorem passes_iff : (∀ k fault, ¬Fails catalog field e name last k fault) ↔
    e.allowed.allows name = true ∧ (last = true → e.allowed.allowsLeaf name field = true) ∧
      ∃ relation related, e.relation? name = some relation ∧
        catalog.entity? relation.related = some related ∧
        (last = true → related.isHidden field = false) ∧ relation.kind ≠ .belongsToMany := by
  constructor
  · intro hpass
    have hlisted : e.allowed.allows name = true := by
      by_contra hc
      exact hpass _ _ (.listed (by simpa using hc))
    have hleaf : last = true → e.allowed.allowsLeaf name field = true := by
      intro hlast
      by_contra hc
      exact hpass _ _ (.leafListed hlast (by simpa using hc))
    rcases hrel : e.relation? name with _ | relation
    · exact absurd (.declared hrel) (hpass _ _)
    rcases hent : catalog.entity? relation.related with _ | related
    · exact absurd (.defined hrel hent) (hpass _ _)
    refine ⟨hlisted, hleaf, relation, related, rfl, hent, fun hlast => ?_, fun hkind => ?_⟩
    · by_contra hc
      exact hpass _ _ (.leafShown hlast hrel hent (by simpa using hc))
    · exact hpass _ _ (.joinable hrel hkind)
  · rintro ⟨hlisted, hleaf, relation, related, hrel, hent, hshown, hkind⟩ k fault hf
    cases hf <;> simp_all

end Link

/-! ### All relations of a path -/

section Path

variable {e related : Entity} {relation : Relation} {name : String} {names : List String}

/-- At the first position, the checks are those of the first relation. -/
theorem failsAt_zero {k : Check} {fault : SearchError} :
    FailsAt catalog field e (name :: names) 0 k fault ↔
      Fails catalog field e name names.isEmpty k fault := by
  have hlast : (decide (0 + 1 = (name :: names).length)) = names.isEmpty := by
    cases names <;> simp
  unfold FailsAt
  rw [hlast]
  constructor
  · rintro ⟨e', name', hreach, hname, hf⟩
    obtain rfl : name = name' := by simpa using hname
    cases hreach
    exact hf
  · exact fun hf => ⟨e, name, .here e, rfl, hf⟩

/-- Behind the first relation, they are those of the other relations. -/
theorem failsAt_succ (hrel : e.relation? name = some relation)
    (hent : catalog.entity? relation.related = some related) {i : Nat} {k : Check}
    {fault : SearchError} :
    FailsAt catalog field e (name :: names) (i + 1) k fault ↔
      FailsAt catalog field related names i k fault := by
  simp only [FailsAt, List.take_succ_cons, List.getElem?_cons_succ, List.length_cons,
    Nat.add_right_cancel_iff, Catalog.Reaches.cons_iff hrel hent]

/-- Nothing fails along no relations. -/
theorem not_failsAt_nil {i : Nat} {k : Check} {fault : SearchError} :
    ¬FailsAt catalog field e [] i k fault := by
  rintro ⟨_, _, -, hname, -⟩
  simp at hname

/-- **There is one first fault only.** -/
theorem FirstFault.unique {fault fault' : SearchError}
    (h : FirstFault catalog field e names fault) (h' : FirstFault catalog field e names fault') :
    fault = fault' := by
  obtain ⟨i, k, hf, hmin⟩ := h
  obtain ⟨i', k', hf', hmin'⟩ := h'
  have hle := hmin i' k' fault' hf'
  have hle' := hmin' i k fault hf
  obtain rfl : i = i' := by omega
  obtain rfl : k = k' := Check.rank_inj (by omega)
  obtain ⟨e₁, name₁, hreach, hname, hfails⟩ := hf
  obtain ⟨e₂, name₂, hreach', hname', hfails'⟩ := hf'
  obtain rfl := hreach.unique hreach'
  obtain rfl := Option.some.inj (hname.symm.trans hname')
  exact hfails.unique hfails'

/-- The first fault behind a relation that passes its checks is the first fault altogether. -/
theorem firstFault_cons (hpass : ∀ k fault, ¬Fails catalog field e name names.isEmpty k fault)
    (hrel : e.relation? name = some relation)
    (hent : catalog.entity? relation.related = some related) {fault : SearchError}
    (h : FirstFault catalog field related names fault) :
    FirstFault catalog field e (name :: names) fault := by
  obtain ⟨i, k, hf, hmin⟩ := h
  refine ⟨i + 1, k, (failsAt_succ hrel hent).mpr hf, fun j k' fault' hf' => ?_⟩
  cases j with
  | zero => exact absurd (failsAt_zero.mp hf') (hpass k' fault')
  | succ j =>
    have hle := hmin j k' fault' ((failsAt_succ hrel hent).mp hf')
    omega

/-- **What a chain says about the checks**: it can be made only if none fails, and otherwise it
reports the first one. -/
theorem chain_cases (catalog : Catalog) (field : String) (names : List String) (e : Entity) :
    (∃ links, chain catalog field names e = .ok links ∧
      ∀ i k fault, ¬FailsAt catalog field e names i k fault) ∨
    ∃ fault, chain catalog field names e = .error fault ∧
      FirstFault catalog field e names fault := by
  induction names generalizing e with
  | nil => exact Or.inl ⟨[], rfl, fun _ _ _ => not_failsAt_nil⟩
  | cons name names ih =>
    rcases link_cases catalog field e name names.isEmpty with
      ⟨l, hl, hrel, hent, hpass⟩ | ⟨k, fault, hl, hf, hmin⟩
    · rcases ih l.2 with ⟨links, hlinks, hnone⟩ | ⟨fault, hfault, hfirst⟩
      · refine Or.inl ⟨l :: links, by simp only [chain, hl, hlinks, Except.map],
          fun i k fault h => ?_⟩
        cases i with
        | zero => exact hpass k fault (failsAt_zero.mp h)
        | succ i => exact hnone i k fault ((failsAt_succ hrel hent).mp h)
      · exact Or.inr ⟨fault, by simp only [chain, hl, hfault, Except.map],
          firstFault_cons hpass hrel hent hfirst⟩
    · refine Or.inr ⟨fault, by simp only [chain, hl], 0, k, failsAt_zero.mpr hf,
        fun j k' fault' hf' => ?_⟩
      cases j with
      | zero => exact Or.inr ⟨rfl, hmin k' fault' (failsAt_zero.mp hf')⟩
      | succ j => exact Or.inl (Nat.succ_pos j)

/-- **As far as no check fails, the relations lead somewhere.** -/
theorem reaches_of_passes (h : ∀ i k fault, ¬FailsAt catalog field e names i k fault) (i : Nat) :
    ∃ target, catalog.Reaches e (names.take i) target := by
  induction i with
  | zero => exact ⟨e, by simpa using .here e⟩
  | succ i ih =>
    obtain ⟨target, hreach⟩ := ih
    rcases hname : names[i]? with _ | name
    · have hlen : names.length ≤ i := by simpa using hname
      rw [List.take_of_length_le (by omega)]
      rw [List.take_of_length_le hlen] at hreach
      exact ⟨target, hreach⟩
    · obtain ⟨-, -, relation, related, hrel, hent, -⟩ :=
        passes_iff.mp fun k fault hf => h i k fault ⟨target, name, hreach, hname, hf⟩
      rw [List.take_add_one, hname]
      exact ⟨related, hreach.concat hrel hent⟩

end Path

/-! ### Orders -/

section Order

variable {root : Entity} {order : OrderPath}

/-- The last of some names, and those before it, by the position of the last. -/
theorem last_of_position {names : List String} {i : Nat} {name : String}
    (hname : names[i]? = some name) (hlast : i + 1 = names.length) :
    names.getLast? = some name ∧ names.dropLast = names.take i ∧
      names.take i ++ [name] = names := by
  obtain rfl : i = names.length - 1 := by omega
  have hall := List.take_add_one (l := names) (i := names.length - 1)
  rw [hname, hlast, List.take_length, Option.toList_some] at hall
  exact ⟨by rw [List.getLast?_eq_getElem?, hname], List.dropLast_eq_take, hall.symm⟩

/-- If there are names, there is a last one. -/
theorem exists_last {names : List String} (h : names ≠ []) :
    ∃ i name, names[i]? = some name ∧ i + 1 = names.length := by
  have hpos : 0 < names.length := List.length_pos_iff.mpr h
  exact ⟨names.length - 1, _, List.getElem?_eq_getElem (by omega), by omega⟩

/-- **An order is admitted exactly if no check fails**: none along its relations, and its field is
not hidden on the root if it follows none. -/
theorem admitted_iff : order.Admitted catalog root ↔
    (∀ i k fault, ¬FailsAt catalog order.path.field root order.path.relations i k fault) ∧
      (order.path.relations = [] → root.isHidden order.path.field = false) := by
  constructor
  · intro h
    refine ⟨fun i k fault => ?_, fun hnil => h.shown root ?_⟩
    · rintro ⟨e, name, hreach, hname, hf⟩
      obtain ⟨e', relation, related, hreach', hlisted, hrel, hent, hkind⟩ := h.hops i name hname
      obtain rfl := hreach.unique hreach'
      refine passes_iff.mpr ⟨hlisted, fun hlast => ?_, relation, related, hrel, hent,
        fun hlast => ?_, hkind⟩ k fault hf
      · obtain ⟨hlast', hdrop, -⟩ := last_of_position hname (of_decide_eq_true hlast)
        exact h.leaf e name hlast' (hdrop ▸ hreach)
      · obtain ⟨-, -, hall⟩ := last_of_position hname (of_decide_eq_true hlast)
        exact h.shown related (hall ▸ hreach.concat hrel hent)
    · rw [hnil]
      exact .here root
  · rintro ⟨hpass, hplain⟩
    have hone : ∀ i e name, catalog.Reaches root (order.path.relations.take i) e →
        order.path.relations[i]? = some name →
        ∀ k fault, ¬Fails catalog order.path.field e name
          (i + 1 = order.path.relations.length) k fault :=
      fun i e name hreach hname k fault hf => hpass i k fault ⟨e, name, hreach, hname, hf⟩
    refine ⟨fun i name hname => ?_, fun e name hname hreach => ?_, fun e hreach => ?_⟩
    · obtain ⟨e, hreach⟩ := reaches_of_passes hpass i
      obtain ⟨hlisted, -, relation, related, hrel, hent, -, hkind⟩ :=
        passes_iff.mp (hone i e name hreach hname)
      exact ⟨e, relation, related, hreach, hlisted, hrel, hent, hkind⟩
    · -- the field is looked at behind the last relation, which is the one at hand
      have hne : order.path.relations ≠ [] := by
        rintro hnil
        simp [hnil] at hname
      obtain ⟨i, name', hname', hlast⟩ := exists_last hne
      obtain ⟨hget, hdrop, -⟩ := last_of_position hname' hlast
      obtain rfl := Option.some.inj (hget.symm.trans hname)
      exact (passes_iff.mp (hone i e name' (hdrop ▸ hreach) hname')).2.1 (decide_eq_true hlast)
    · rcases Classical.em (order.path.relations = []) with hnil | hne
      · rw [hnil] at hreach
        obtain rfl := hreach.unique (.here root)
        exact hplain hnil
      · obtain ⟨i, name, hname, hlast⟩ := exists_last hne
        obtain ⟨-, -, hall⟩ := last_of_position hname hlast
        obtain ⟨e', hreach'⟩ := reaches_of_passes hpass i
        obtain ⟨-, -, relation, related, hrel, hent, hshown, -⟩ :=
          passes_iff.mp (hone i e' name hreach' hname)
        obtain rfl := hreach.unique (hall ▸ hreach'.concat hrel hent)
        exact hshown (decide_eq_true hlast)

/-- **Resolving an order**: it is admitted and has a chain, or it is refused with its error. -/
theorem links_cases (catalog : Catalog) (root : Entity) (order : OrderPath) :
    (order.Admitted catalog root ∧ ∃ ls, order.links catalog root = .ok ls) ∨
      ∃ fault, order.links catalog root = .error fault ∧ order.Refused catalog root fault := by
  rcases Classical.em (order.path.relations = []) with hnil | hne
  · have hplain : order.path.isRelational = false := by simp [FieldPath.isRelational, hnil]
    cases hhidden : root.isHidden order.path.field with
    | true =>
      refine Or.inr ⟨_, ?_, Or.inr ⟨hnil, hhidden, rfl⟩⟩
      simp only [links, hplain, hhidden, Bool.false_eq_true, if_false, if_true]
    | false =>
      refine Or.inl ⟨admitted_iff.mpr ⟨fun i k fault => ?_, fun _ => hhidden⟩, [], ?_⟩
      · rw [hnil]
        exact not_failsAt_nil
      · simp only [links, hplain, hhidden, Bool.false_eq_true, if_false]
  · have hrel : order.path.isRelational = true := by simpa [FieldPath.isRelational] using hne
    simp only [links, hrel, if_true]
    rcases chain_cases catalog order.path.field order.path.relations root with
      ⟨ls, hls, hpass⟩ | ⟨fault, hfault, hfirst⟩
    · exact Or.inl ⟨admitted_iff.mpr ⟨hpass, fun hnil => absurd hnil hne⟩, ls, hls⟩
    · exact Or.inr ⟨fault, hfault, Or.inl hfirst⟩

/-- An order is refused for one reason only. -/
theorem Refused.unique {fault fault' : SearchError} (h : order.Refused catalog root fault)
    (h' : order.Refused catalog root fault') : fault = fault' := by
  rcases h with h | ⟨hnil, -, rfl⟩
  · rcases h' with h' | ⟨hnil, -, -⟩
    · exact h.unique h'
    · obtain ⟨i, k, hf, -⟩ := h
      rw [hnil] at hf
      exact absurd hf not_failsAt_nil
  · rcases h' with h' | ⟨-, -, rfl⟩
    · obtain ⟨i, k, hf, -⟩ := h'
      rw [hnil] at hf
      exact absurd hf not_failsAt_nil
    · rfl

/-- An order that is admitted is not refused. -/
theorem Admitted.not_refused (h : order.Admitted catalog root) (fault : SearchError) :
    ¬order.Refused catalog root fault := by
  obtain ⟨hpass, hplain⟩ := admitted_iff.mp h
  rintro (⟨i, k, hf, -⟩ | ⟨hnil, hhidden, -⟩)
  · exact hpass i k fault hf
  · simp [hplain hnil] at hhidden

/-- **An order can be resolved exactly if it is admitted.** -/
theorem links_eq_ok_iff : (∃ ls, order.links catalog root = .ok ls) ↔
    order.Admitted catalog root := by
  rcases links_cases catalog root order with ⟨hadm, hok⟩ | ⟨fault, herr, href⟩
  · exact ⟨fun _ => hadm, fun _ => hok⟩
  · refine ⟨fun ⟨ls, hls⟩ => ?_, fun hadm => absurd href (hadm.not_refused fault)⟩
    simp [herr] at hls

/-- **An order that cannot be resolved fails with the first check that fails.** -/
theorem links_eq_error_iff {fault : SearchError} : order.links catalog root = .error fault ↔
    order.Refused catalog root fault := by
  rcases links_cases catalog root order with ⟨hadm, ls, hok⟩ | ⟨fault', herr, href⟩
  · refine ⟨fun h => ?_, fun h => absurd h (hadm.not_refused fault)⟩
    simp [hok] at h
  · refine ⟨fun h => ?_, fun h => ?_⟩
    · rw [← Except.error.inj (herr.symm.trans h)]
      exact href
    · rw [herr, href.unique h]

end Order

end OrderPath

/-! ### Marks of relations

Whether filters may follow a relation is written on it as a mark. Orders do not look at it. -/

/-- A relation without its mark. -/
def Relation.unmarked (r : Relation) : Relation := { r with searchable := none }

/-- An entity whose relations have no marks. -/
def Entity.unmarked (e : Entity) : Entity :=
  { e with relations := e.relations.map Relation.unmarked }

/-- Two catalogs that differ at most in the marks of relations. -/
def Catalog.SameButMarks (catalog catalog' : Catalog) : Prop :=
  ∀ name, (catalog.entity? name).map Entity.unmarked = (catalog'.entity? name).map Entity.unmarked

/-- Relations are found by their names, marked or not. -/
theorem Entity.relation?_unmarked (e : Entity) (name : String) :
    e.unmarked.relation? name = (e.relation? name).map Relation.unmarked := by
  simp only [relation?, unmarked, List.find?_map]
  rfl

namespace OrderPath

/-- A link whose relations have no marks. -/
def Link.unmarked (l : Link) : Link := (l.1.unmarked, l.2.unmarked)

variable {catalog catalog' : Catalog}

/-- One relation is followed or refused alike, whatever the marks. -/
theorem link_congr (hc : catalog.SameButMarks catalog') {e e' : Entity}
    (he : e.unmarked = e'.unmarked) (field name : String) (last : Bool) :
    (link catalog field e name last).map Link.unmarked =
      (link catalog' field e' name last).map Link.unmarked := by
  have hrelation : (e.relation? name).map Relation.unmarked =
      (e'.relation? name).map Relation.unmarked := by
    rw [← Entity.relation?_unmarked, he, Entity.relation?_unmarked]
  obtain ⟨hname, -, -, hallowed, -, -⟩ := Entity.mk.inj he
  simp only [link, hop, hname, hallowed]
  cases (!e'.allowed.allows name)
  case true => rfl
  cases (last && !e'.allowed.allowsLeaf name field)
  case true => rfl
  rcases hrel : e.relation? name with _ | relation <;>
    rcases hrel' : e'.relation? name with _ | relation' <;> simp [hrel, hrel'] at hrelation
  · rfl
  obtain ⟨hrname, hkind, hrelated, -⟩ := Relation.mk.inj hrelation
  have hentity := hc relation.related
  simp only [hrelated] at hentity ⊢
  rcases hent : catalog.entity? relation'.related with _ | related <;>
    rcases hent' : catalog'.entity? relation'.related with _ | related' <;>
    simp [hent, hent'] at hentity
  · rfl
  obtain ⟨hename, -, -, -, hhidden, -⟩ := Entity.mk.inj hentity
  have hhides : related.isHidden field = related'.isHidden field := by
    simp only [Entity.isHidden, hhidden]
  simp only [hhides, hename, Bool.false_eq_true, if_false]
  cases (last && related'.isHidden field)
  case true => rfl
  simp only [hkind, hrname, Bool.false_eq_true, if_false]
  cases relation'.kind.isManyToMany
  case true => rfl
  exact congrArg Except.ok (Prod.ext hrelation hentity)

/-- A whole path is followed or refused alike. -/
theorem chain_congr (hc : catalog.SameButMarks catalog') (field : String) (names : List String)
    {e e' : Entity} (he : e.unmarked = e'.unmarked) :
    (chain catalog field names e).map (List.map Link.unmarked) =
      (chain catalog' field names e').map (List.map Link.unmarked) := by
  induction names generalizing e e' with
  | nil => rfl
  | cons name names ih =>
    have hlink := link_congr hc he field name names.isEmpty
    simp only [chain]
    cases hl : link catalog field e name names.isEmpty with
    | error fault =>
      cases hl' : link catalog' field e' name names.isEmpty with
      | error fault' =>
        simp only [hl, hl', Except.map, Except.error.injEq] at hlink
        rw [hlink]
      | ok l' => simp [hl, hl', Except.map] at hlink
    | ok l =>
      cases hl' : link catalog' field e' name names.isEmpty with
      | error fault' => simp [hl, hl', Except.map] at hlink
      | ok l' =>
        simp only [hl, hl', Except.map, Except.ok.injEq] at hlink
        have hrest := ih (congrArg Prod.snd hlink)
        simp only
        cases hm : chain catalog field names l.2 <;>
          cases hm' : chain catalog' field names l'.2 <;> simp_all [Except.map]

/-- **Marks do not matter to an order**: it is resolved or refused alike. -/
theorem links_congr (hc : catalog.SameButMarks catalog') {root root' : Entity}
    (hroot : root.unmarked = root'.unmarked) (order : OrderPath) :
    (order.links catalog root).map (List.map Link.unmarked) =
      (order.links catalog' root').map (List.map Link.unmarked) := by
  obtain ⟨hname, -, -, -, hhidden, -⟩ := Entity.mk.inj hroot
  have hhides : root.isHidden order.path.field = root'.isHidden order.path.field := by
    simp only [Entity.isHidden, hhidden]
  simp only [links, hname, hhides]
  split
  · exact chain_congr hc _ _ hroot
  · rfl

end OrderPath

/-! ### The verdict on an order -/

namespace Searcher

/-- Whether something succeeds, and the error if it does not. -/
def verdict {α : Type} (x : Except SearchError α) : Except SearchError Unit := x.map fun _ => ()

theorem verdict_map {α β : Type} (f : α → β) (x : Except SearchError α) :
    verdict (x.map f) = verdict x := by
  cases x <;> rfl

/-- **Access to orders is exact**: an order is applied exactly if it is admitted; it fails exactly
with the first thing that is wrong with it; and the verdict is the same for every policy, every
query it is applied to, and whatever relations filters may follow. -/
theorem applyOrder_exact (s : Searcher) (root : Entity) (order : OrderPath) (q : Select)
    (supply : AliasSupply) :
    ((∃ r, s.applyOrder root (some order) q supply = .ok r) ↔ order.Admitted s.catalog root) ∧
    (∀ fault, s.applyOrder root (some order) q supply = .error fault ↔
      order.Refused s.catalog root fault) ∧
    ∀ (s' : Searcher) (root' : Entity) (q' : Select) (supply' : AliasSupply),
      s.catalog.SameButMarks s'.catalog → root.unmarked = root'.unmarked →
        verdict (s'.applyOrder root' (some order) q' supply') =
          verdict (s.applyOrder root (some order) q supply) := by
  simp only [applyOrder, OrderPath.apply_eq]
  refine ⟨?_, fun fault => ?_, fun s' root' q' supply' hc hroot => ?_⟩
  · rw [← OrderPath.links_eq_ok_iff]
    cases order.links s.catalog root <;> simp [Except.map]
  · rw [← OrderPath.links_eq_error_iff]
    cases order.links s.catalog root <;> simp [Except.map]
  · have hlinks := congrArg verdict (OrderPath.links_congr hc hroot order)
    simp only [verdict_map] at hlinks ⊢
    exact hlinks.symm

end Searcher

namespace Blog

/-- The user, none of whose relations filters may follow. -/
def guardedUser : Entity :=
  { user with relations := user.relations.map (·.withSearchable false) }

/-- The catalog with that user. -/
def guardedCatalog : Catalog := catalog.add guardedUser

theorem sameButMarks_guarded : catalog.SameButMarks guardedCatalog := by
  intro name
  have hget : guardedCatalog.entity? name =
      if "User" = name then some guardedUser else catalog.entity? name := Dict.get?_insert _ _ _ _
  rw [hget]
  split
  · next h =>
    subst h
    rfl
  · rfl

end Blog

/-- The theorem at an order by a hidden field two relations away, under either policy and with
every relation closed to filters. -/
theorem Searcher.applyOrder_exact_blog :
    Blog.catalog.SameButMarks Blog.guardedCatalog ∧
    Blog.user.unmarked = Blog.guardedUser.unmarked ∧
    Blog.searcher.applyOrder Blog.user (some (.ofText "manager.profile.ssn" .asc))
      (.ofTable "users") .forJoins = .error (.denied "Profile" "ssn") ∧
    verdict ((Searcher.mk Blog.guardedCatalog .deny).applyOrder Blog.guardedUser
        (some (.ofText "manager.profile.ssn" .asc)) (.ofTable "users") .forJoins) =
      .error (.denied "Profile" "ssn") :=
  ⟨Blog.sameButMarks_guarded, rfl, rfl,
    (applyOrder_exact Blog.searcher Blog.user (.ofText "manager.profile.ssn" .asc)
      (.ofTable "users") .forJoins).2.2 _ _ _ _ Blog.sameButMarks_guarded rfl⟩

end DottedQuery
