import DottedQuery.Proofs.Catalog.Names
import DottedQuery.Proofs.Search.Plan

/-!
# Validated requests

What a request that has passed the rules is known to have. The rules collect complaints, so a
request passes exactly when there is none (`DottedQuery.Rules.validate_eq_ok_iff`), and a
criterion that is not complained about has all the parts its compilation asks for
(`DottedQuery.Rules.parts_of_complaints`). A validated request therefore never fails for
want of a part, and its compilation is its plans, written out
(`DottedQuery.Searcher.compile_eq_of_validated`).
-/

namespace DottedQuery

/-! ### Collecting messages -/

namespace Messages

/-- Messages with complaints added to them, in order. -/
def collect (m : Messages) (cs : List (String × String)) : Messages :=
  cs.foldl (fun m c => m.add c.1 c.2) m

@[simp] theorem collect_nil (m : Messages) : m.collect [] = m := rfl

@[simp] theorem collect_cons (m : Messages) (c : String × String) (cs : List (String × String)) :
    m.collect (c :: cs) = (m.add c.1 c.2).collect cs := rfl

/-- The messages of a place after complaints are added: those it had, and those that name it. -/
theorem get_collect (m : Messages) (cs : List (String × String)) (place : String) :
    (m.collect cs).get place =
      m.get place ++ (cs.filter fun c => c.1 = place).map Prod.snd := by
  induction cs generalizing m with
  | nil => simp
  | cons c cs ih =>
    rw [collect_cons, ih, get_add]
    by_cases h : c.1 = place <;> simp [h]

/-- The places after complaints are added: those there were, and those that are named. -/
theorem mem_places_collect (m : Messages) (cs : List (String × String)) (place : String) :
    place ∈ (m.collect cs).places ↔ place ∈ m.places ∨ ∃ c ∈ cs, c.1 = place := by
  induction cs generalizing m with
  | nil => simp
  | cons c cs ih =>
    have hadd : place ∈ (m.add c.1 c.2).places ↔ place = c.1 ∨ place ∈ m.places :=
      Dict.mem_keys_insert
    rw [collect_cons, ih, hadd]
    constructor
    · rintro ((rfl | h) | ⟨d, hd, hdp⟩)
      · exact Or.inr ⟨c, List.mem_cons_self, rfl⟩
      · exact Or.inl h
      · exact Or.inr ⟨d, List.mem_cons_of_mem _ hd, hdp⟩
    · rintro (h | ⟨d, hd, rfl⟩)
      · exact Or.inl (Or.inr h)
      · rcases List.mem_cons.mp hd with rfl | hd
        · exact Or.inl (Or.inl rfl)
        · exact Or.inr ⟨d, hd, rfl⟩

theorem isEmpty_iff_places (m : Messages) : m.isEmpty = true ↔ m.places = [] := by
  simp [isEmpty, Dict.isEmpty, places, Dict.keys]

/-- Nothing was complained about if no messages were collected. -/
theorem isEmpty_collect (cs : List (String × String)) :
    (empty.collect cs).isEmpty = true ↔ cs = [] := by
  rw [isEmpty_iff_places]
  constructor
  · intro h
    cases cs with
    | nil => rfl
    | cons c cs =>
      have hmem : c.1 ∈ (empty.collect (c :: cs)).places :=
        (mem_places_collect _ _ _).mpr (Or.inr ⟨c, List.mem_cons_self, rfl⟩)
      rw [h] at hmem
      exact absurd hmem List.not_mem_nil
  · rintro rfl
    rfl

end Messages

/-! ### Passing the rules -/

namespace Rules

/-- Checking collects all complaints. -/
theorem validate_eq (r : Rules) (request : SearchRequest) :
    r.validate request =
      if r.complaints request = [] then .ok ()
      else .error (Messages.empty.collect (r.complaints request)) := by
  have h := Messages.isEmpty_collect (r.complaints request)
  change Messages.result (Messages.empty.collect (r.complaints request)) = _
  unfold Messages.result
  by_cases hc : r.complaints request = []
  · rw [if_pos (h.mpr hc), if_pos hc]
  · rw [if_neg (fun he => hc (h.mp he)), if_neg hc]

/-- **A request passes exactly when nothing is complained about.** -/
theorem validate_eq_ok_iff (r : Rules) (request : SearchRequest) :
    r.validate request = .ok () ↔ r.complaints request = [] := by
  rw [validate_eq]
  split
  · next h => simp [h]
  · next h => simp [h]

/-- A request is complained about item by item. -/
theorem complaints_eq_nil_iff (r : Rules) (request : SearchRequest) :
    r.complaints request = [] ↔
      ∀ k item, request.items[k]? = some item → r.itemComplaints item k = [] := by
  simp only [complaints, List.flatMap_eq_nil_iff, Prod.forall, List.mk_mem_zipIdx_iff_getElem?]
  exact ⟨fun h k item hk => h item k hk, fun h item k hk => h k item hk⟩

theorem fieldComplaint_eq_none {item : Nat} {field : Option String}
    (h : fieldComplaint? item field = none) : ∃ f, field = some f := by
  cases field with
  | none => simp [fieldComplaint?] at h
  | some f => exact ⟨f, rfl⟩

theorem operatorComplaint_eq_none {item : Nat} {op : Option String}
    (h : operatorComplaint? item op = none) : ∃ o, op.bind Operator.parse? = some o := by
  unfold operatorComplaint? at h
  cases op with
  | none => simp at h
  | some op =>
    simp only at h
    split at h
    · simp at h
    · split at h
      · next hsome =>
        rw [Option.bind_some]
        exact Option.isSome_iff_exists.mp hsome
      · simp at h

theorem valueComplaint_eq_none {item : Nat} {value : Option Value}
    (h : valueComplaint? item value = none) : ∃ v, value = some v := by
  cases value with
  | none => simp [valueComplaint?] at h
  | some v => exact ⟨v, rfl⟩

/-- **A criterion that is not complained about has all its parts**: a field with its path, an
operator that is known, and a value. -/
theorem parts_of_complaints {item j : Nat} {c : Criterion}
    (h : criterionComplaints item c j = []) :
    ∃ p, Searcher.parts? c = some p := by
  simp only [criterionComplaints, List.append_eq_nil_iff, Option.toList_eq_nil_iff,
    Option.map_eq_none_iff] at h
  obtain ⟨f, hf⟩ := fieldComplaint_eq_none h.1.1
  obtain ⟨o, ho⟩ := operatorComplaint_eq_none h.1.2
  obtain ⟨v, hv⟩ := valueComplaint_eq_none h.2
  refine ⟨(FieldPath.ofText f, o, v), ?_⟩
  simp [Searcher.parts?, Criterion.operator?, Criterion.path?, ho, hv, hf]

/-- An item that is not complained about has a criterion list of complete criteria. -/
theorem parts_of_itemComplaints {r : Rules} {i : SearchItem} {item : Nat}
    (h : r.itemComplaints i item = []) {c : Criterion} (hc : c ∈ i.criteriaList) :
    ∃ p, Searcher.parts? c = some p := by
  simp only [itemComplaints, List.append_eq_nil_iff, List.flatMap_eq_nil_iff, Prod.forall] at h
  obtain ⟨j, hj, rfl⟩ := List.mem_iff_getElem.mp hc
  exact parts_of_complaints (h.2 _ j (by simp [List.mk_mem_zipIdx_iff_getElem?, hj]))

theorem entityComplaint_eq_none {r : Rules} {item : Nat} {key : Option String}
    (h : r.entityComplaint? item key = none) : ∃ k, key = some k ∧ k ∈ r.keys := by
  unfold entityComplaint? at h
  cases key with
  | none => simp at h
  | some k =>
    simp only at h
    split at h
    · simp at h
    · split at h
      · next hk => exact ⟨k, rfl, List.contains_iff_mem.mp hk⟩
      · simp at h

/-- **Every item of a validated request names a search key.** -/
theorem key_of_validate {r : Rules} {request : SearchRequest} (h : r.validate request = .ok ())
    {i : SearchItem} (hi : i ∈ request.items) : ∃ k, i.key? = some k ∧ k ∈ r.keys := by
  rw [validate_eq_ok_iff, complaints_eq_nil_iff] at h
  obtain ⟨k, hk, rfl⟩ := List.mem_iff_getElem.mp hi
  have hcomplaints := h k _ (List.getElem?_eq_getElem hk)
  simp only [itemComplaints, List.append_eq_nil_iff, Option.toList_eq_nil_iff,
    Option.map_eq_none_iff] at hcomplaints
  exact entityComplaint_eq_none hcomplaints.1

/-- **Every criterion of a validated request has all its parts.** -/
theorem parts_of_validate {r : Rules} {request : SearchRequest} (h : r.validate request = .ok ())
    {i : SearchItem} (hi : i ∈ request.items) {c : Criterion} (hc : c ∈ i.criteriaList) :
    ∃ p, Searcher.parts? c = some p := by
  rw [validate_eq_ok_iff, complaints_eq_nil_iff] at h
  obtain ⟨k, hk, rfl⟩ := List.mem_iff_getElem.mp hi
  exact parts_of_itemComplaints (h k _ (List.getElem?_eq_getElem hk)) hc

end Rules

/-! ### Compiling a validated request -/

namespace Searcher

variable {s : Searcher}

/-- **A validated request compiles to its plans, written out**: it fails as they do, and its
query is that of the last one. -/
theorem compile_eq_of_validated {request : SearchRequest} (order : Option OrderPath)
    (hne : request.items ≠ []) (hv : s.rules.validate request = .ok ()) :
    s.compile request order = (s.plans order 0 request.items).bind fun ps =>
      match Plan.lastQuery ps .initial none with
      | none => .error .emptyRequest
      | some q => .ok q := by
  have hne' : request.items.isEmpty = false := by simpa using hne
  simp only [compile, hne', Bool.false_eq_true, if_false, hv, compileItems_eq]
  cases s.plans order 0 request.items with
  | error fault => rfl
  | ok ps =>
    simp only [Except.map, Except.bind]
    cases Plan.lastQuery ps .initial none <;> rfl

/-- **What is seen of a compilation is seen of its plans**, also when they are changed in a way that
cannot be seen in their queries. -/
theorem map_compile_of_validated {β : Type} {change : Plan → Plan} {see : Select → β}
    (hquery : ∀ p supplies, see ((change p).query supplies) = see (p.query supplies))
    (hafter : ∀ p supplies, (change p).after supplies = p.after supplies)
    {request : SearchRequest} (order : Option OrderPath) (hne : request.items ≠ [])
    (hv : s.rules.validate request = .ok ()) :
    (s.compile request order).map see =
      ((s.plans order 0 request.items).map (List.map change)).bind fun ps =>
        match (Plan.lastQuery ps .initial none).map see with
        | none => .error .emptyRequest
        | some b => .ok b := by
  rw [compile_eq_of_validated order hne hv]
  cases s.plans order 0 request.items with
  | error fault => rfl
  | ok ps =>
    simp only [Except.map, Except.bind, Plan.map_lastQuery hquery hafter ps .initial (q := none) rfl]
    cases Plan.lastQuery ps .initial none <;> rfl

/-- A validated request of one item compiles to its plan, written out. -/
theorem compile_single_of_validated {item : SearchItem} (order : Option OrderPath)
    (hv : s.rules.validate ⟨[item]⟩ = .ok ()) :
    s.compile ⟨[item]⟩ order = (s.plan 0 item order).map fun p => p.query .initial := by
  rw [compile_eq_of_validated order (by simp) hv]
  simp only [plans]
  cases s.plan 0 item order <;> rfl

/-- Only validated requests compile. -/
theorem validate_of_compile {request : SearchRequest} {order : Option OrderPath} {q : Select}
    (h : s.compile request order = .ok q) : s.rules.validate request = .ok () := by
  unfold compile at h
  split at h
  · simp at h
  · cases hv : s.rules.validate request with
    | error messages => simp [hv] at h
    | ok => rfl

/-- The query of a request of one item is that of its plan. -/
theorem plan_of_compile {item : SearchItem} {order : Option OrderPath} {q : Select}
    (h : s.compile ⟨[item]⟩ order = .ok q) :
    ∃ p, s.plan 0 item order = .ok p ∧ q = p.query .initial := by
  rw [compile_single_of_validated order (validate_of_compile h)] at h
  cases hp : s.plan 0 item order with
  | error fault => simp [hp, Except.map] at h
  | ok p =>
    rw [hp] at h
    exact ⟨p, rfl, (Except.ok.inj h).symm⟩

end Searcher

/-! ### A small catalog

Users with posts, a profile, roles and a manager, on which the statements about compilations are
tried. Social security numbers are hidden, and filters may not follow the secrets of a user. -/

namespace Blog

/-- A profile, with a hidden field. -/
def profile : Entity := (Entity.ofTable "Profile" "profiles").hide "ssn"

/-- A post and its author. -/
def post : Entity :=
  (Entity.ofTable "Post" "posts").addRelation (.belongsTo "author" "User" "user_id" "id")

/-- A role. -/
def role : Entity := .ofTable "Role" "roles"

/-- A secret. -/
def secret : Entity := .ofTable "Secret" "secrets"

/-- A user. -/
def user : Entity where
  name := "User"
  table := "users"
  searchable := true
  allowed := (AllowList.empty.allow "manager").allow "profile"
  hidden := .empty
  relations :=
    [.hasOne "profile" "Profile" "user_id" "id",
      (Relation.hasMany "posts" "Post" "user_id" "id").withConstraint "published" .eq (.bool true),
      .belongsTo "manager" "User" "manager_id" "id",
      .belongsToMany "roles" "Role" "role_user" "user_id" "role_id",
      (Relation.hasMany "secrets" "Secret" "user_id" "id").withSearchable false]

/-- The catalog. -/
def catalog : Catalog :=
  (((((Catalog.empty.add user).add post).add profile).add role).add secret).expose "user" "User"

/-- The searcher, with the policy of leaving comparisons with hidden fields out. -/
def searcher : Searcher := .ofCatalog catalog

/-- A criterion. -/
def criterion (field op : String) (value : Value) : Criterion :=
  ⟨some field, some op, some value, false⟩

/-- A search for users. -/
def search (cs : List Criterion) : SearchItem := ⟨some "user", some cs⟩

/-- A search for users that are admins by their name or by one of their roles, with a guess at a
hidden field. -/
def admins : SearchItem :=
  search [criterion "name" "=" (.string "admin"), criterion "profile.ssn" "=" (.int 1),
    { criterion "manager.roles.name" "in" (.string "admin,root") with or := true }]

/-- No table of the catalog is an alias. -/
theorem avoids {stem : String}
    (h : stem = AliasSupply.existsStem ∨ stem = AliasSupply.joinStem) : catalog.Avoids stem := by
  rcases h with rfl | rfl <;> exact Catalog.avoids_of_entities (by decide)

/-- The pivot table of the catalog is not the table of an entity. -/
theorem pivotsApart : catalog.PivotsApart := Catalog.pivotsApart_of_entities (by decide)

end Blog

end DottedQuery
